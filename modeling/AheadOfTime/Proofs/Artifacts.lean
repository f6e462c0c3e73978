import AheadOfTime.Proofs.Spared
import Mathlib.Data.List.Pairwise

/-! # What a build answers

    A build that answers has finished, one after the other, what it answers.  An
    output that is finished is a regular file where its path leads, and the rest of
    the work leaves that file alone, unless it finishes another output whose path
    leads there as well; so the last of these is what is found there in the end
    (`Advances.wroteLast`).  Cleaning up takes nothing away from an output whose
    path leads past the scratch directory.

    The names of outputs are another matter.  Inputs that a build compiles one by
    one share their extension, so they differ in what stands before it, and so do
    the outputs that are named after them (`Path.eq_of_withExtension`). -/

namespace AheadOfTime

/-! ## Names of outputs -/

namespace Path

variable {p q output : Path} {extension : String}

/-- The last name of a path completes its directory. -/
theorem withName_name (h : p.name ≠ "") : p.withName p.name = p := by
  have hne : p.parts ≠ [] := by
    intro hnil
    unfold name at h
    rw [hnil] at h
    exact h rfl
  unfold withName name
  rw [List.getLast?_eq_some_getLast hne, Option.getD_some, List.dropLast_concat_getLast hne]

/-- A name that takes the place of another one settles what its path can become. -/
theorem withName_inj {name name' : String} (h : p.withName name = q.withName name') :
    name = name' ∧ ∀ other, p.withName other = q.withName other := by
  obtain ⟨hanchor, hparts⟩ := Path.mk.inj h
  obtain ⟨habove, hlast⟩ := List.append_inj' hparts rfl
  refine ⟨List.cons.inj hlast |>.1, fun other => ?_⟩
  unfold withName
  rw [hanchor, habove]

/-- **Paths of one extension** that get the same one by another are the same. -/
theorem eq_of_withExtension (hp : p.withExtension extension = .ok output)
    (hq : q.withExtension extension = .ok output) (h : p.extension = q.extension) : p = q := by
  obtain ⟨-, hpname, hpout⟩ := withExtension_ok hp
  obtain ⟨-, hqname, hqout⟩ := withExtension_ok hq
  obtain ⟨hnames, hwith⟩ := withName_inj (hpout.symm.trans hqout)
  have hstem : p.stem = q.stem := (String.append_left_inj _).mp hnames
  have hname : p.name = q.name := by
    rw [← p.stem_append_extension, ← q.stem_append_extension, hstem, h]
  rw [← withName_name hpname, ← withName_name hqname, hwith, hname]

/-- An extension with one dot, at its head, is the extension of the path that gets
    it. -/
theorem extension_of_withExtension {cs : List Char} (hcs : cs ≠ []) (hdot : '.' ∉ cs)
    (h : p.withExtension (String.ofList ('.' :: cs)) = .ok output) :
    output.extension = String.ofList ('.' :: cs) := by
  obtain ⟨-, hname, rfl⟩ := withExtension_ok h
  have hstem : p.stem.toList ≠ [] := fun hnil =>
    stem_ne_empty hname (String.toList_eq_nil_iff.mp hnil)
  have hlast : (p.withName (p.stem ++ String.ofList ('.' :: cs))).name
      = p.stem ++ String.ofList ('.' :: cs) := by
    unfold name withName
    rw [List.getLast?_concat, Option.getD_some]
  -- the last dot of the name is the one that the extension begins with
  have htail : (p.stem.toList ++ '.' :: cs).reverse.takeWhile (· ≠ '.') = cs.reverse := by
    rw [List.reverse_append, List.reverse_cons, List.append_assoc,
      List.takeWhile_append_of_pos fun c hc => ?_]
    · rw [List.singleton_append, List.takeWhile_cons_of_neg (by decide), List.append_nil]
    · refine decide_eq_true fun hc' => hdot ?_
      rw [← hc']
      exact List.mem_reverse.mp hc
  have hsplit : splitAtLastDot (p.stem.toList ++ '.' :: cs) = some (p.stem.toList, '.' :: cs) := by
    unfold splitAtLastDot
    dsimp only
    rw [htail, List.length_reverse, List.length_append, List.length_cons, if_neg (by omega),
      List.reverse_reverse]
    have hlength : p.stem.toList.length + (cs.length + 1) - cs.length - 1
        = p.stem.toList.length := by omega
    rw [hlength, List.take_left]
  unfold extension splitName
  rw [hlast, String.toList_append, String.toList_ofList, hsplit]
  dsimp only
  rw [if_pos ⟨hstem, fun hone => hcs (List.cons.inj hone).2⟩]

end Path

/-! ## Artifacts that are named after inputs -/

namespace Request

variable {r : Request} {t : Toolchain} {artifacts : List Path}

/-- The extension of the outputs that are named after inputs. -/
def madeExtension (r : Request) (t : Toolchain) : String :=
  if r.kind = .object then t.objectExtension else t.bundleExtension

/-- Made input by input, the artifacts are named after the inputs, in their order. -/
theorem Artifacts.forall₂ (h : r.Artifacts t artifacts) (hkind : r.kind.isPerInput = true) :
    List.Forall₂ (r.MadeOf (r.madeExtension t)) r.inputs artifacts := by
  unfold Artifacts at h
  unfold madeExtension
  cases hcase : r.kind with
  | object =>
      rw [hcase] at h
      exact h
  | bundle =>
      rw [hcase] at h
      exact h
  | dylib =>
      rw [hcase] at hkind
      exact nomatch hkind
  | executable =>
      rw [hcase] at hkind
      exact nomatch hkind

/-- **Different inputs** of one extension are made into different artifacts. -/
theorem nodup_of_madeOf {extension source : String} {inputs : List Path}
    (h : List.Forall₂ (r.MadeOf extension) inputs artifacts) (hnone : r.output = none)
    (hsource : ∀ input ∈ inputs, input.extension = source) (hnodup : inputs.Nodup) :
    artifacts.Nodup := by
  let R : Path → Path → Prop :=
    fun input p => input.extension = source ∧ input.withExtension extension = .ok p
  have hunique : Relator.BiUnique R := by
    refine ⟨fun p q output hp hq => ?_, fun p output output' hp hp' => ?_⟩
    · exact Path.eq_of_withExtension hp.2 hq.2 (hp.1.trans hq.1.symm)
    · exact Except.ok.inj (hp.2.symm.trans hp'.2)
  have hnamed : List.Forall₂ R inputs artifacts := by
    refine (List.forall₂_and_left _ _).mpr ⟨hsource, h.imp fun input p hmade => ?_⟩
    rcases hmade with hgiven | ⟨-, hname⟩
    · exact nomatch hgiven.symm.trans hnone
    · exact hname
  exact (List.rel_nodup hunique hnamed).mp hnodup

/-- Every artifact is made of some input. -/
theorem exists_madeOf {extension : String} {inputs : List Path} {p : Path}
    (h : List.Forall₂ (r.MadeOf extension) inputs artifacts) (hp : p ∈ artifacts) :
    ∃ input ∈ inputs, r.MadeOf extension input p := by
  induction h with
  | nil => exact nomatch hp
  | cons hmade _ ih =>
      rcases List.mem_cons.mp hp with rfl | hlater
      · exact ⟨_, List.mem_cons_self, hmade⟩
      · obtain ⟨input, hinput, hmade⟩ := ih hlater
        exact ⟨input, List.mem_cons_of_mem _ hinput, hmade⟩

end Request

open FileTree (Same Enriched Steady Emptied)

/-! ## What is finished, and what is finished last -/

namespace FileTree

variable {t t' : FileTree} {p : Path} {l : Location}

/-- The path leads where it leads without what is at or below the place. -/
def LeadsPast (t : FileTree) (place : Location) (p : Path) : Prop :=
  ∀ l, t.locate .target p = .ok l →
    (t.removeBelow place).locate .target p = .ok l ∧ ¬ place <+: l

/-- The paths do not lead to the same place. -/
def Apart (t : FileTree) (p q : Path) : Prop :=
  ∀ l, t.locate .target p = .ok l → t.locate .target q ≠ .ok l

/-- A regular file is where the path leads. -/
def IsFileAt (t : FileTree) (p : Path) (l : Location) : Prop :=
  t.locate .target p = .ok l ∧ ∃ e, t.entryAt? l = some e ∧ isRegular e = true

/-- A file is one still where the tree has grown richer. -/
theorem IsFileAt.of_enriched (h : t.IsFileAt p l) (hricher : Enriched t t') : t'.IsFileAt p l := by
  obtain ⟨hlocate, e, he, hregular⟩ := h
  exact ⟨locate_of_opens (hricher.opens .target) (.inl rfl) hlocate, hricher.regular he hregular⟩

/-- A path that is found is found where what it is spelled by leads. -/
theorem isFileAt_of_status {e : Entry} (hp : p.IsWritten)
    (h : t.status (.spelled p.toString) = .ok e) (hregular : isRegular e = true) :
    ∃ l, t.IsFileAt p l := by
  unfold status at h
  rw [locate_spelled hp] at h
  rcases hlocate : t.locate .target p with reason | l
  · rw [hlocate] at h
    exact nomatch h
  · rw [hlocate] at h
    dsimp only [bind, Except.bind] at h
    rcases he : t.entryAt? l with _ | e'
    · rw [he] at h
      exact nomatch h
    · rw [he] at h
      rw [← Except.ok.inj h] at hregular
      exact ⟨l, hlocate, e', he, hregular⟩

end FileTree

/-- The call names an output whose path leads to the location. -/
def Exchange.NamesAt (t : FileTree) (l : Location) (x : Exchange) : Prop :=
  ∃ p, x.call.output? = some p ∧ t.locate .target p = .ok l

/-- These exchanges, of all that were made behind those of `history`, were the last to
    write at the location: what the last of them left there is the file that is
    there, and no call behind it names an output there. -/
def WroteLast (host : Host) (t : FileTree) (l : Location) (file : Option Entry)
    (history made xs : List Exchange) : Prop :=
  ∃ before x later, made = before ++ x :: later ∧ xs <:+ before ++ [x] ∧
    file = (host.left (history ++ before) x).fileAt? l ∧ ∀ y ∈ later, ¬ y.NamesAt t l

/-- What was the last to write behind some exchanges was the last behind fewer. -/
theorem WroteLast.append {host : Host} {t : FileTree} {l : Location} {file : Option Entry}
    {history made xs first : List Exchange}
    (h : WroteLast host t l file (history ++ first) made xs) :
    WroteLast host t l file history (first ++ made) xs := by
  obtain ⟨before, x, later, hmade, hxs, hfile, hlater⟩ := h
  refine ⟨first ++ before, x, later, ?_, ?_, ?_, hlater⟩
  · rw [hmade, List.append_assoc]
  · rw [List.append_assoc]
    exact hxs.trans (List.suffix_append _ _)
  · rw [hfile, List.append_assoc]

namespace Project

variable {j : Project} {t : FileTree} {u v : World} {p : Path} {l : Location} {xs : List Exchange}
  {done : Finished}

/-- **A tool that keeps its contract** leaves a file where it finishes an output. -/
theorem Finish.isFileAt (hfaithful : j.host.tools.Faithful) (hp : p.IsWritten)
    (h : j.Finish p xs u v) : ∃ l, v.files.IsFileAt p l := by
  have hfound : ∀ {u : World} {stage : Stage} {c : Call} {result : ToolResult},
      CallsFor stage p c → (j.host.run c).run u = (.ok result, v) → ∃ l, v.files.IsFileAt p l := by
    intro u stage c result hcalls hrun
    obtain ⟨e, hstatus, hregular⟩ := hfaithful.of_ok hcalls.checked hcalls.output hrun
    exact FileTree.isFileAt_of_status hp hstatus hregular
  cases h with
  | merged _ hcalls hrun => exact hfound hcalls hrun
  | linked _ _ hstrips _ hstrip => exact hfound hstrips hstrip

/-- What stands behind the exchanges that finish an output is what the last one
    left. -/
theorem Finish.left (h : j.Finish p xs u v) :
    ∃ before x, xs = before ++ [x] ∧ v.files = j.host.left (u.exchanges ++ before) x := by
  cases h with
  | merged _ _ hrun =>
      obtain ⟨program, status, output, rfl, -, -, -⟩ := Host.run_hostRun_eq_ok hrun
      refine ⟨[], _, rfl, ?_⟩
      rw [List.append_nil]
      rfl
  | @linked u m v c c' result result' _ _ _ hlink hstrip =>
      obtain ⟨program, status, output, rfl, -, -, -⟩ := Host.run_hostRun_eq_ok hlink
      obtain ⟨program', status', output', rfl, -, -, -⟩ := Host.run_hostRun_eq_ok hstrip
      exact ⟨[j.host.exchanged c u], _, rfl, rfl⟩

/-- **What is finished is a regular file** as long as the work goes on. -/
theorem Advances.isFileAt (ho : j.Orderly) (hfaithful : j.host.tools.Faithful)
    (hrooted : t.Rooted) (hu : Sheltered t u) (h : j.Advances u done v) :
    ∀ d ∈ done, ∃ l, v.files.IsFileAt d.1 l := by
  induction h with
  | refl => exact List.forall_mem_nil _
  | step hstep _ ih => exact ih (hstep.sparing ho hrooted hu).sheltered
  | finish houtput hmade hfinish hrest ih =>
      have hp := ho.isWritten_output houtput
      have hsheltered := (hfinish.sparing ho hu hmade hp).sheltered
      obtain ⟨l, hfile⟩ := hfinish.isFileAt hfaithful hp
      refine List.forall_mem_cons.mpr ⟨⟨l, ?_⟩, ih hsheltered⟩
      exact hfile.of_enriched (hrest.sparing ho hrooted hsheltered).richer

/-- A call of a small step is for a scratch file, or for no file at all. -/
theorem Step.namesNothing {m : World} (h : j.Step u m) (hu : Sheltered t u) (hkeeps : Keeps m v)
    (hv : Sheltered t v) (hl : ¬ InScratch t v l) :
    ∃ made, m.exchanges = u.exchanges ++ made ∧ ∀ x ∈ made, ¬ x.NamesAt v.files l := by
  rcases h.exchanges with heq | ⟨c, hprepares, heq⟩
  · exact ⟨[], heq.trans (List.append_nil _).symm, List.forall_mem_nil _⟩
  · refine ⟨_, heq, List.forall_mem_singleton.mpr ?_⟩
    rintro ⟨q, hq, hlocate⟩
    rcases hprepares with hnone | ⟨f, hf, hcalled⟩
    · exact nomatch hnone.symm.trans hq
    · obtain rfl := Option.some.inj (hq.symm.trans hcalled)
      rw [FileTree.locate_spelled (hu.isWritten hf)] at hlocate
      exact hl (hv.inScratch (hkeeps.files (h.keeps.files hf)) hlocate)

/-- **Outside of the scratch directory**, a regular file is as it was, and no call names
    an output there, or it is what was left by the last output that is finished
    there. -/
theorem Advances.wroteLast (ho : j.Orderly) (hrooted : t.Rooted) (hu : Sheltered t u)
    (h : j.Advances u done v) (hl : ¬ InScratch t v l) :
    ∃ made, v.exchanges = u.exchanges ++ made ∧
      ((v.files.fileAt? l = u.files.fileAt? l ∧ ∀ x ∈ made, ¬ x.NamesAt v.files l) ∨
        ∃ d ∈ done, v.files.locate .target d.1 = .ok l ∧
          WroteLast j.host v.files l (v.files.fileAt? l) u.exchanges made d.2) := by
  -- induction on the run: an output counts only if nothing behind it is named there
  induction h with
  | refl u => exact ⟨[], (List.append_nil _).symm, .inl ⟨rfl, List.forall_mem_nil _⟩⟩
  | @step u m v done hstep hrest ih =>
      have hfirst := hstep.sparing ho hrooted hu
      have hlater := hrest.sparing ho hrooted hfirst.sheltered
      obtain ⟨made, hmade, hcases⟩ := ih hfirst.sheltered hl
      have hsame : m.files.fileAt? l = u.files.fileAt? l := by
        rcases hfirst.frame l with heq | hfalse | hinside
        · exact heq
        · exact hfalse.elim
        · exact absurd (hinside.mono hlater.keeps) hl
      obtain ⟨first, hfirsts, hnames⟩ := hstep.namesNothing hu hlater.keeps hlater.sheltered hl
      rw [hfirsts] at hmade hcases
      refine ⟨first ++ made, by rw [hmade, List.append_assoc], ?_⟩
      rcases hcases with ⟨heq, hothers⟩ | ⟨d, hd, hlocate, hwrote⟩
      · exact .inl ⟨heq.trans hsame, List.forall_mem_append.mpr ⟨hnames, hothers⟩⟩
      · exact .inr ⟨d, hd, hlocate, hwrote.append⟩
  | @finish u m v p xs done houtput hmadeDirectory hfinish hrest ih =>
      have hp := ho.isWritten_output houtput
      have hfirst := hfinish.sparing ho hu hmadeDirectory hp
      have hlater := hrest.sparing ho hrooted hfirst.sheltered
      obtain ⟨made, hmade, hcases⟩ := ih hfirst.sheltered hl
      obtain ⟨hfirsts, hfinished⟩ := hfinish.exchanges
      rw [hfirsts] at hmade hcases
      refine ⟨xs ++ made, by rw [hmade, List.append_assoc], ?_⟩
      rcases hcases with ⟨heq, hothers⟩ | ⟨d, hd, hlocate, hwrote⟩
      · -- nothing later is named there, so it is this output that was left there, if any
        by_cases hthere : v.files.locate .target p = .ok l
        · obtain ⟨before, x, rfl, hleft⟩ := hfinish.left
          refine .inr ⟨_, List.mem_cons_self, hthere, before, x, made, ?_, List.suffix_refl _, ?_,
            hothers⟩
          · rw [List.append_assoc]
            rfl
          · rw [heq, hleft]
        · have hsame : m.files.fileAt? l = u.files.fileAt? l := by
            rcases hfirst.frame l with heq | hlocate | hinside
            · exact heq
            · have hopens := hlater.richer.opens .target
              exact absurd (FileTree.locate_of_opens hopens (.inl rfl) hlocate) hthere
            · exact absurd (hinside.mono hlater.keeps) hl
          refine .inl ⟨heq.trans hsame, List.forall_mem_append.mpr ⟨fun x hx => ?_, hothers⟩⟩
          rintro ⟨q, hq, hlocate⟩
          obtain rfl := Option.some.inj (hq.symm.trans (hfinished.output hx))
          rw [FileTree.locate_spelled hp] at hlocate
          exact hthere hlocate
      · exact .inr ⟨d, List.mem_cons_of_mem _ hd, hlocate, hwrote.append⟩

/-! ## What is left in the end -/

/-- **Cleaning up** takes nothing away from a path that leads past the scratch
    directory. -/
theorem Rests.isFileAt_cleanUp {c : World} (h : Rests t c)
    (hpast : ∀ place, MadeAt t c place → c.files.LeadsPast place p) (hfile : c.files.IsFileAt p l) :
    (Build.cleanUp.run c).2.files.IsFileAt p l ∧ ¬ InScratch t c l := by
  obtain ⟨hlocate, e, he, hregular⟩ := hfile
  have houtside : ¬ InScratch t c l := by
    rintro ⟨place, hmade, hbelow⟩
    exact (hpast place hmade l hlocate).2 hbelow
  refine ⟨⟨?_, e, ?_, hregular⟩, houtside⟩
  · rcases h.cleanUp with ⟨-, hfiles⟩ | ⟨place, emptied, hmade, hemptied, hfiles⟩
    · rw [hfiles]
      exact hlocate
    · -- the path leads past the place as if nothing were below it, and what sticks there
      -- is no link and opens no other way
      have hopens : FileTree.Opens .target (c.files.removeBelow place)
          (Build.cleanUp.run c).2.files := by
        refine ⟨?_, fun l => ?_⟩
        · rcases hfiles with hfiles | hfiles
          · rw [hfiles]
            exact hemptied.workingDirectory
          · rw [hfiles]
            exact hemptied.workingDirectory
        · by_cases hbelow : place <+: l ∧ l ≠ []
          · refine .inr ⟨?_, fun e he hlink => ?_⟩
            · rw [FileTree.entryAt?_removeBelow, if_pos hbelow]
              exact nofun
            · have hemptied' : emptied.entryAt? l = some e := by
                rcases hfiles with hfiles | hfiles
                · rw [← hfiles]
                  exact he
                · rw [hfiles] at he
                  exact FileTree.entryAt?_of_removeBelow he
              rcases hemptied.entries l with heq | ⟨hnone, -⟩
              · rw [h.noLinks hmade hbelow.1 (heq.symm.trans hemptied')] at hlink
                exact nomatch hlink
              · exact nomatch hnone.symm.trans hemptied'
          · left
            rw [FileTree.entryAt?_removeBelow, if_neg hbelow]
            by_cases hroot : l = []
            · rw [hroot]
              rfl
            · exact h.entryAt?_cleanUp fun ⟨place', hmade', hbelow'⟩ =>
                hbelow ⟨hmade.eq hmade' ▸ hbelow', hroot⟩
      exact FileTree.locate_of_opens hopens (.inl rfl) (hpast place hmade l hlocate).1
  · rw [h.entryAt?_cleanUp houtside]
    exact he

/-- **What is finished is there in the end**, if its path leads past the scratch
    directory, and an output that is finished there was the last to be written. -/
theorem Advances.wroteLast_cleanUp (ho : j.Orderly) (hfaithful : j.host.tools.Faithful)
    (hrooted : t.Rooted) (hu : Sheltered t u) (h : j.Advances u done v) {made : List Exchange}
    (hmade : v.exchanges = u.exchanges ++ made)
    (hpast : ∀ d ∈ done, ∀ place, MadeAt t v place → v.files.LeadsPast place d.1)
    {d : Path × List Exchange} (hd : d ∈ done) :
    ∃ l, (Build.cleanUp.run v).2.files.IsFileAt d.1 l ∧ ∃ d' ∈ done,
      (Build.cleanUp.run v).2.files.locate .target d'.1 = .ok l ∧
      j.request.kind.FinishedBy d'.1 d'.2 ∧
      WroteLast j.host v.files l ((Build.cleanUp.run v).2.files.fileAt? l) u.exchanges made
        d'.2 := by
  have hrests := (h.sparing ho hrooted hu).sheltered.rests
  obtain ⟨made', hmade', hfinished⟩ := h.exchanges
  obtain rfl : made' = made := List.append_cancel_left (hmade'.symm.trans hmade)
  obtain ⟨l, hfile⟩ := h.isFileAt ho hfaithful hrooted hu d hd
  obtain ⟨hthere, houtside⟩ := hrests.isFileAt_cleanUp (hpast d hd) hfile
  refine ⟨l, hthere, ?_⟩
  obtain ⟨made'', hmade'', hwrote⟩ := h.wroteLast ho hrooted hu houtside
  obtain rfl : made'' = made' := List.append_cancel_left (hmade''.symm.trans hmade)
  rcases hwrote with ⟨-, hnames⟩ | ⟨d', hd', hlocate, hwrote⟩
  · -- the output itself has been named
    obtain ⟨hfinishedBy, hsub⟩ := hfinished d hd
    obtain ⟨x, hx, hmakes⟩ := hfinishedBy.exists_makes
    refine absurd ⟨_, hmakes.output, ?_⟩ (hnames x (hsub hx))
    rw [FileTree.locate_spelled (ho.isWritten_output (h.output_of_mem hd))]
    exact hfile.1
  · obtain ⟨l', hfile'⟩ := h.isFileAt ho hfaithful hrooted hu d' hd'
    obtain rfl : l' = l := Except.ok.inj (hfile'.1.symm.trans hlocate)
    obtain ⟨hthere', -⟩ := hrests.isFileAt_cleanUp (hpast d' hd') hfile'
    refine ⟨d', hd', hthere'.1, (hfinished d' hd').1, ?_⟩
    rw [FileTree.fileAt?_congr (hrests.entryAt?_cleanUp houtside)]
    exact hwrote

end Project

/-- A build that answers has cleaned up behind its work. -/
theorem Builder.worked_of_ok {b : Builder} {r : Request} {w after c : World} {result : BuildResult}
    (hrun : (b.run r).run w = (.ok result, after)) (hcleaning : b.cleaning? r w = some c) :
    ∃ tools, b.Worked r w tools (.ok result.artifacts) c ∧ after.exchanges = c.exchanges ∧
      after.files = (Build.cleanUp.run c).2.files := by
  have hran := b.ran r w
  rw [hrun] at hran
  cases hran with
  | @built tools artifacts v files hworked =>
      obtain rfl : c = v := Option.some.inj (hcleaning.symm.trans hworked.cleaning)
      refine ⟨tools, hworked, rfl, ?_⟩
      rw [← hworked.files_run, hrun]

/-- Inputs that are compiled one by one are sources. -/
theorem Request.source_of_check {r : Request} {t : Toolchain} {files : FileTree}
    (h : r.check t files = .ok ()) (hkind : r.kind.isPerInput = true) :
    ∀ input ∈ r.inputs, input.extension = t.sourceExtension := by
  intro input hinput
  have hallowed := (r.inputs_of_check h input hinput).2
  unfold allowedExtensions at hallowed
  rw [if_pos hkind] at hallowed
  exact List.mem_singleton.mp hallowed

theorem Request.madeExtension_layout (r : Request) (t : Toolchain) :
    r.madeExtension (r.layout t) = r.madeExtension t := by
  unfold madeExtension layout
  cases r.sdk <;> rfl

/-- **A build that answers** has made what it answers: what the kind asks for, in the
    order of the inputs.  With tools that write their outputs, and nothing else, and
    outputs whose paths lead past the scratch directory, each of them is a regular
    file when the build is over, and the build last wrote it when it finished an
    output there; that is this very one, if the artifacts are different files.
    Artifacts that are named after different inputs are different, and if the
    extension they get is not that of sources, none of them is an input. -/
theorem run_answers_artifacts {b : Builder} {r : Request} {w after c : World}
    {result : BuildResult} (ho : Project.Orderly ⟨b.host, r, r.layout b.toolchain⟩)
    (hfaithful : b.host.tools.Faithful) (hrooted : w.files.Rooted)
    (hrun : (b.run r).run w = (.ok result, after)) (hcleaning : b.cleaning? r w = some c)
    (hpast : ∀ p, r.Output (r.layout b.toolchain) p →
      ∀ place, Project.MadeAt w.files c place → c.files.LeadsPast place p) :
    r.Artifacts (r.layout b.toolchain) result.artifacts ∧
    (∃ (made : List Exchange) (done : Finished), after.exchanges = w.exchanges ++ made ∧
      done.map Prod.fst = result.artifacts ∧
      ∀ d ∈ done, ∃ l, after.files.IsFileAt d.1 l ∧
        ∃ d' ∈ done, after.files.locate .target d'.1 = .ok l ∧ r.kind.FinishedBy d'.1 d'.2 ∧
          WroteLast b.host c.files l (after.files.fileAt? l) w.exchanges made d'.2 ∧
          (result.artifacts.Pairwise after.files.Apart → d' = d)) ∧
    (r.kind.isPerInput = true → r.output = none →
      (r.inputs.Nodup → result.artifacts.Nodup) ∧
      (∀ p ∈ result.artifacts, p ∈ r.inputs → p.extension = b.toolchain.sourceExtension) ∧
      ∀ cs, cs ≠ [] → '.' ∉ cs → r.madeExtension b.toolchain = String.ofList ('.' :: cs) →
        r.madeExtension b.toolchain ≠ b.toolchain.sourceExtension →
        ∀ p ∈ result.artifacts, p ∉ r.inputs) := by
  obtain ⟨tools, hworked, hexchanges, hfiles⟩ := Builder.worked_of_ok hrun hcleaning
  have hgoes := Project.goesFrom_buildArtifacts b r (r.layout b.toolchain) tools (b.begun r w)
  unfold Project.GoesFrom at hgoes
  rw [hworked.work] at hgoes
  obtain ⟨done, hadvances, hdone, hshape⟩ := hgoes
  refine ⟨hshape, ?_, fun hkind hnone => ?_⟩
  · have hbegun : Project.Sheltered w.files (b.begun r w) :=
      .before rfl rfl ⟨rfl, fun _ => rfl⟩
    obtain ⟨made, hmade, -⟩ := hadvances.exchanges
    refine ⟨made, done, hexchanges.trans hmade, hdone, fun d hd => ?_⟩
    obtain ⟨l, hthere, d', hd', hthere', hfinished, hwrote⟩ := hadvances.wroteLast_cleanUp ho
      hfaithful hrooted hbegun hmade (fun d hd => hpast d.1 (hadvances.output_of_mem hd)) hd
    rw [← hfiles] at hthere hthere' hwrote
    refine ⟨l, hthere, d', hd', hthere', hfinished, hwrote, fun hapart => ?_⟩
    rw [← hdone, List.pairwise_map] at hapart
    by_contra hne
    have : Std.Symm fun d d' : Path × List Exchange => after.files.Apart d.1 d'.1 :=
      ⟨fun d d' hdd' l hl hl' => hdd' l hl' hl⟩
    exact hapart.forall hd' hd hne l hthere' hthere.1
  · have hfor := hshape.forall₂ hkind
    have hsource := r.source_of_check hworked.check hkind
    have hinputs : ∀ p ∈ result.artifacts, p ∈ r.inputs →
        p.extension = b.toolchain.sourceExtension := fun p _ hp => hsource p hp
    refine ⟨Request.nodup_of_madeOf hfor hnone hsource, hinputs, ?_⟩
    intro cs hcs hdot hextension hne p hp hinput
    obtain ⟨input, -, hgiven | ⟨-, hname⟩⟩ := Request.exists_madeOf hfor hp
    · exact nomatch hgiven.symm.trans hnone
    · rw [r.madeExtension_layout, hextension] at hname
      rw [hextension, ← Path.extension_of_withExtension hcs hdot hname] at hne
      exact hne (hinputs p hp hinput)

/-- A request for the objects of some sources. -/
def objectsRequest (inputs : List Path) (output : Option Path) : Request where
  kind := .object
  inputs
  output
  archs := [.x86_64]
  sdk := none
  frameworks := []
  linkerFlags := []
  static := false
  verbose := false
  jobs := 1

/-- A request for the objects of two sources. -/
def sourcesRequest : Request := objectsRequest [.ofString "a.rb", .ofString "b.rb"] none

/-- A working directory with two sources. -/
def sourcesWorld : World where
  files := ⟨["w"], [(["w"], .directory), (["w", "a.rb"], .file [] false),
    (["w", "b.rb"], .file [] false), (["w", "tmp"], .directory)]⟩

/-- The place of its scratch directory. -/
def sourcesPlace : Location := ["w", "tmp", "aotc-00000001"]

private theorem sources_leads :
    sourcesWorld.files.locate .entry (.ofString "tmp/aotc-00000001") = .ok sourcesPlace :=
  eq_ok_of_toOption (by decide)

/-- What the build of both objects comes to, and where they lead when it cleans up. -/
private theorem sources_run :
    (((markingBuilder ".o").run sourcesRequest).run sourcesWorld).1.toOption.map
        BuildResult.artifacts = some [.ofString "a.o", .ofString "b.o"] ∧
      ((markingBuilder ".o").cleaning? sourcesRequest sourcesWorld).map (fun c =>
          (c.scratch.directory, [Path.ofString "a.o", .ofString "b.o"].map fun p =>
            ((c.files.locate .target p).toOption,
              ((c.files.removeBelow sourcesPlace).locate .target p).toOption)))
        = some (some (.ofString "tmp/aotc-00000001"),
            [(some ["w", "a.o"], some ["w", "a.o"]), (some ["w", "b.o"], some ["w", "b.o"])]) := by
  decide +kernel

private theorem sources_output {p : Path} {t : Toolchain} (ht : t.objectExtension = ".o")
    (h : sourcesRequest.Output t p) :
    p = .ofString "a.o" ∨ p = .ofString "b.o" := by
  have hfirst : (Path.ofString "a.rb").withExtension ".o" = .ok (.ofString "a.o") :=
    eq_ok_of_toOption (by decide)
  have hsecond : (Path.ofString "b.rb").withExtension ".o" = .ok (.ofString "b.o") :=
    eq_ok_of_toOption (by decide)
  cases h with
  | given hgiven => exact nomatch hgiven
  | object _ _ hinput hname =>
      rw [ht] at hname
      rcases List.mem_pair.mp hinput with rfl | rfl
      · exact .inl (Except.ok.inj (hname.symm.trans hfirst))
      · exact .inr (Except.ok.inj (hname.symm.trans hsecond))
  | bundle hkind _ _ _ => exact nomatch hkind
  | executable hkind _ _ _ => exact nomatch hkind

/-- Both objects are there in the end, and neither is a source. -/
theorem run_answers_artifacts_two :
    ∃ result after,
      ((markingBuilder ".o").run sourcesRequest).run sourcesWorld = (.ok result, after) ∧
      result.artifacts = [.ofString "a.o", .ofString "b.o"] ∧
      (∀ p ∈ result.artifacts, ∃ l, after.files.IsFileAt p l) ∧ result.artifacts.Nodup ∧
      ∀ p ∈ result.artifacts, p ∉ sourcesRequest.inputs := by
  obtain ⟨hanswer, hfacts⟩ := sources_run
  rcases hcleaning : (markingBuilder ".o").cleaning? sourcesRequest sourcesWorld with _ | c
  · rw [hcleaning] at hfacts
    exact nomatch hfacts
  rcases hrun : ((markingBuilder ".o").run sourcesRequest).run sourcesWorld with ⟨e | result, after⟩
  · rw [hrun] at hanswer
    exact nomatch hanswer
  rw [hcleaning] at hfacts
  rw [hrun] at hanswer
  have hartifacts : result.artifacts = [.ofString "a.o", .ofString "b.o"] :=
    Option.some.inj hanswer
  obtain ⟨hdirectory, hleads⟩ := Prod.mk.inj (Option.some.inj hfacts)
  obtain ⟨hfirst, hrest⟩ := List.cons.inj hleads
  obtain ⟨hsecond, -⟩ := List.cons.inj hrest
  have hpast : ∀ p,
      sourcesRequest.Output (sourcesRequest.layout (markingBuilder ".o").toolchain) p →
      ∀ place, Project.MadeAt sourcesWorld.files c place → c.files.LeadsPast place p := by
    rintro p houtput place ⟨d, hd, hlocate, -⟩ l hl
    obtain rfl := Option.some.inj (hdirectory.symm.trans hd)
    obtain rfl : place = sourcesPlace := Except.ok.inj (hlocate.symm.trans sources_leads)
    rcases sources_output rfl houtput with rfl | rfl
    · obtain ⟨hthere, hpast⟩ := Prod.mk.inj hfirst
      obtain rfl := Except.ok.inj (hl.symm.trans (eq_ok_of_toOption hthere))
      exact ⟨eq_ok_of_toOption hpast, by decide⟩
    · obtain ⟨hthere, hpast⟩ := Prod.mk.inj hsecond
      obtain rfl := Except.ok.inj (hl.symm.trans (eq_ok_of_toOption hthere))
      exact ⟨eq_ok_of_toOption hpast, by decide⟩
  have ho : Project.Orderly ⟨(markingBuilder ".o").host, sourcesRequest,
      sourcesRequest.layout (markingBuilder ".o").toolchain⟩ := by
    refine ⟨(Toolset.faithful_marking _).confined, Text.slash_not_mem_hex 1, by decide, ?_, nofun⟩
    exact List.forall_mem_cons.mpr ⟨Path.isWritten_ofString _,
      List.forall_mem_singleton.mpr (Path.isWritten_ofString _)⟩
  have hrooted : sourcesWorld.files.Rooted := FileTree.rooted_of_entries (by decide)
  obtain ⟨-, ⟨made, done, -, hdone, hfiles⟩, hnames⟩ := run_answers_artifacts ho
    (Toolset.faithful_marking _) hrooted hrun hcleaning hpast
  obtain ⟨hnodup, -, hinputs⟩ := hnames rfl rfl
  refine ⟨result, after, rfl, hartifacts, fun p hp => ?_, hnodup (by decide), ?_⟩
  · rw [← hdone] at hp
    obtain ⟨d, hd, rfl⟩ := List.mem_map.mp hp
    obtain ⟨l, hfile, -⟩ := hfiles d hd
    exact ⟨l, hfile⟩
  · exact hinputs ['o'] (by decide) (by decide) (by decide) (by decide)

/-- Tools that write what they are told to, but first take the object of the first
    source away when they work on the second one. -/
def takingTools : Toolset := fun history c files =>
  Toolset.marking (fun c => c.stage.name) history c
    (if c.input = some "b.rb" then files.remove ["w", "a.o"] else files)

/-- A builder with these tools. -/
def takingBuilder : Builder where
  host := { tools := takingTools, scratchId := Text.hex 1 }
  locator := idleBuilder.locator

/-- What a build among the sources answers, and whether a file is found at the path
    in the end. -/
def leaves (b : Builder) (r : Request) (p : Path) : Option (List Path) × Bool :=
  match (b.run r).run sourcesWorld with
  | (answer, after) =>
    (answer.toOption.map BuildResult.artifacts, (after.files.status p).toOption.isSome)

/-- A path through the scratch directory, out of which it leads again. -/
def detour : Path := .ofString "tmp/aotc-00000001/../out.o"

/-- An artifact is not found in the end if the object extension leads a scratch file to
    its place, if its path leads through the scratch directory, or if tools take it
    away; and it is a source if objects have the extension of sources. -/
theorem artifacts_at_risk :
    ((markingBuilder "/../../../a").host.tools.Faithful ∧
      leaves (markingBuilder "/../../../a") (programRequest [.ofString "a.rb"]) (.ofString "a")
        = (some [.ofString "a"], false)) ∧
    (sourcesWorld.files.resolve detour = ["w", "tmp", "out.o"] ∧
      leaves (markingBuilder ".o") (objectsRequest [.ofString "a.rb"] (some detour)) detour
        = (some [detour], false)) ∧
    ((∀ history c files p output, (takingTools history c files).1 = .exited 0 output →
        c.output? = some p → ∃ e, (takingTools history c files).2.status p = .ok e ∧
          FileTree.isRegular e = true) ∧
      leaves takingBuilder sourcesRequest (.ofString "a.o")
        = (some [.ofString "a.o", .ofString "b.o"], false)) ∧
    leaves (markingBuilder ".rb") (objectsRequest [.ofString "a.rb"] none) (.ofString "a.rb")
      = (some [.ofString "a.rb"], true) := by
  have htaking : ∀ history c files p output, (takingTools history c files).1 = .exited 0 output →
      c.output? = some p → ∃ e, (takingTools history c files).2.status p = .ok e ∧
        FileTree.isRegular e = true := by
    intro history c files p output hreply hp
    unfold takingTools at hreply ⊢
    exact (Toolset.faithful_marking _).written history c _ p output hreply hp
  refine ⟨⟨Toolset.faithful_marking _, ?_⟩, ⟨?_, ?_⟩, ⟨htaking, ?_⟩, ?_⟩
  · decide +kernel
  · decide +kernel
  · decide +kernel
  · decide +kernel
  · decide +kernel

end AheadOfTime
