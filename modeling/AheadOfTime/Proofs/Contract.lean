import AheadOfTime.Proofs.Blame
import AheadOfTime.Proofs.Site

/-! # What tools write

    Most calls of a build name one file that the tool is to write, and `Call.output?`
    reads its path off the arguments.  A toolset is confined if its tools write
    nothing else, and write only when they report success; it is faithful if they
    also do write what they were to write.

    Where a confined tool has worked, and where directories have been made, the
    tree is richer: files and directories stand at places that were free, and files
    in the place of files (`FileTree.Enriched`).  In such a tree every path that led
    somewhere still leads there, and what was a file still is one. -/

namespace AheadOfTime

/-! ## Paths as they are spelled -/

namespace Text

/-- A piece between separators holds none. -/
theorem not_mem_of_mem_splitAt {α : Type} [DecidableEq α] {a : α} {l piece : List α}
    (h : piece ∈ splitAt a l) : a ∉ piece := by
  induction l generalizing piece with
  | nil =>
      rw [List.mem_singleton.mp h]
      exact List.not_mem_nil
  | cons b rest ih =>
      unfold splitAt at h
      split at h
      · rcases List.mem_cons.mp h with rfl | hlater
        · exact List.not_mem_nil
        · exact ih hlater
      · -- the character goes to the front of the first piece
        rename_i hb
        rcases hpieces : splitAt a rest with _ | ⟨first, later⟩
        · exact absurd hpieces (splitAt_ne_nil a rest)
        · rw [hpieces] at h ih
          rcases List.mem_cons.mp h with rfl | hlater
          · rw [List.mem_cons, not_or]
            exact ⟨Ne.symm hb, ih List.mem_cons_self⟩
          · exact ih (List.mem_cons_of_mem _ hlater)

/-- A piece consists of characters of the text. -/
theorem subset_of_mem_splitAt {α : Type} [DecidableEq α] {a : α} {l piece : List α}
    (h : piece ∈ splitAt a l) : piece ⊆ l := by
  induction l generalizing piece with
  | nil =>
      rw [List.mem_singleton.mp h]
      exact List.nil_subset _
  | cons b rest ih =>
      unfold splitAt at h
      split at h
      · rcases List.mem_cons.mp h with rfl | hlater
        · exact List.nil_subset _
        · exact List.subset_cons_of_subset b (ih hlater)
      · rcases hpieces : splitAt a rest with _ | ⟨first, later⟩
        · exact absurd hpieces (splitAt_ne_nil a rest)
        · rw [hpieces] at h ih
          rcases List.mem_cons.mp h with rfl | hlater
          · exact List.cons_subset_cons b (ih List.mem_cons_self)
          · exact List.subset_cons_of_subset b (ih (List.mem_cons_of_mem _ hlater))

/-- A separator ends the pieces before it and starts those behind. -/
theorem splitAt_append {α : Type} [DecidableEq α] (a : α) (l m : List α) :
    splitAt a (l ++ a :: m) = splitAt a l ++ splitAt a m := by
  induction l with
  | nil => exact if_pos rfl
  | cons b later ih =>
      rw [List.cons_append, splitAt, splitAt, ih]
      by_cases hb : b = a
      · rw [if_pos hb, if_pos hb, List.cons_append]
      · rw [if_neg hb, if_neg hb]
        rcases hpieces : splitAt a later with _ | ⟨first, pieces⟩
        · exact absurd hpieces (splitAt_ne_nil a later)
        · rfl

/-- What stands before a separator is a piece of its own. -/
theorem splitAt_append_cons {α : Type} [DecidableEq α] {a : α} {l : List α} (h : a ∉ l)
    (m : List α) : splitAt a (l ++ a :: m) = l :: splitAt a m := by
  rw [splitAt_append, splitAt_of_not_mem h, List.singleton_append]

/-- Names with slashes between them are cut apart again. -/
theorem pieces_intercalate {names : List String} (hne : names ≠ [])
    (h : ∀ name ∈ names, '/' ∉ name.toList) :
    pieces '/' (String.intercalate "/" names) = names := by
  induction names with
  | nil => exact absurd rfl hne
  | cons name later ih =>
      obtain ⟨hname, hlater⟩ := List.forall_mem_cons.mp h
      cases later with
      | nil => rw [String.intercalate_singleton, pieces_of_not_mem hname]
      | cons next later =>
          have hrest := ih (List.cons_ne_nil next later) hlater
          unfold pieces at hrest ⊢
          rw [String.intercalate_cons_cons, String.toList_append, String.toList_append,
            show "/".toList = ['/'] from rfl, List.append_assoc, List.singleton_append,
            splitAt_append_cons hname, List.map_cons, String.ofList_toList, hrest]

end Text

namespace Path

/-- The path can be written: none of its names is empty or holds a slash. -/
def IsWritten (p : Path) : Prop := ∀ name ∈ p.parts, name ≠ "" ∧ '/' ∉ name.toList

/-- The path that a text spells.  It keeps the dots, which `ofString` drops. -/
def spelled (text : String) : Path :=
  ⟨Anchor.ofChars text.toList, (Text.pieces '/' text).filter (· ≠ "")⟩

/-- A path that is read from a text is written in the same way. -/
theorem isWritten_ofString (text : String) : (ofString text).IsWritten := by
  intro name hname
  obtain ⟨hpiece, hproper⟩ := List.mem_filter.mp hname
  obtain ⟨piece, hmem, rfl⟩ := List.mem_map.mp hpiece
  refine ⟨?_, ?_⟩
  · intro hempty
    rw [hempty] at hproper
    exact absurd hproper (by decide)
  · rw [String.toList_ofList]
    exact Text.not_mem_of_mem_splitAt hmem

/-- The names of a written path, with slashes between them, spell these names. -/
private theorem filter_pieces_intercalate {names : List String}
    (h : ∀ name ∈ names, name ≠ "" ∧ '/' ∉ name.toList) :
    (Text.pieces '/' (String.intercalate "/" names)).filter (· ≠ "") = names := by
  cases names with
  | nil => rfl
  | cons name later =>
      rw [Text.pieces_intercalate (List.cons_ne_nil name later) fun n hn => (h n hn).2]
      exact List.filter_eq_self.mpr fun n hn => decide_eq_true (h n hn).1

private theorem pieces_slash (text : String) :
    Text.pieces '/' ("/" ++ text) = "" :: Text.pieces '/' text := by
  unfold Text.pieces
  rw [String.toList_append]
  exact congrArg (List.map String.ofList) (if_pos rfl)

/-- What stands in front of the first name decides the anchor. -/
private theorem ofChars_intercalate {names : List String}
    (h : ∀ name ∈ names, name ≠ "" ∧ '/' ∉ name.toList) :
    ∀ c ∈ (String.intercalate "/" names).toList.head?, c ≠ '/' := by
  intro c hc hslash
  rw [hslash] at hc
  cases names with
  | nil => exact nomatch hc
  | cons name later =>
      obtain ⟨hne, hplain⟩ := h name List.mem_cons_self
      -- the text begins as its first name does
      have hhead : (String.intercalate "/" (name :: later)).toList.head? = name.toList.head? := by
        have hlist : name.toList ≠ [] := fun hnil => hne (String.toList_eq_nil_iff.mp hnil)
        cases later with
        | nil => rw [String.intercalate_singleton]
        | cons next later =>
            obtain ⟨c, rest, hcons⟩ := List.exists_cons_of_ne_nil hlist
            rw [String.intercalate_cons_cons, String.toList_append, String.toList_append, hcons]
            rfl
      rw [hhead] at hc
      exact hplain (List.mem_of_head? hc)

/-- **A written path is spelled by its text**, but for the one that is spelled by a
    single dot. -/
theorem spelled_toString {p : Path} (h : p.IsWritten)
    (hne : ¬ (p.anchor = .relative ∧ p.parts = [])) :
    spelled p.toString = p := by
  obtain ⟨anchor, names⟩ := p
  have hnames := filter_pieces_intercalate h
  have hhead := ofChars_intercalate h
  unfold toString
  rw [if_neg hne]
  unfold spelled
  dsimp only
  generalize hrest : String.intercalate "/" names = rest at hnames hhead
  have hplain : rest.toList.head? ≠ some '/' := fun hslash => hhead '/' hslash rfl
  -- each slash of the anchor cuts off an empty piece, which is no name
  cases anchor with
  | relative =>
      rw [show Anchor.relative.text ++ rest = rest from String.empty_append, hnames,
        Anchor.ofChars_relative hplain]
  | root =>
      rw [show Anchor.root.text = "/" from rfl, pieces_slash,
        List.filter_cons_of_neg (by simp), hnames]
      congr
      rw [String.toList_append]
      exact Anchor.ofChars_root hplain
  | doubleRoot =>
      rw [show Anchor.doubleRoot.text = "/" ++ "/" from rfl, String.append_assoc, pieces_slash,
        pieces_slash, List.filter_cons_of_neg (by simp), List.filter_cons_of_neg (by simp), hnames]
      congr
      rw [String.toList_append, String.toList_append]
      exact Anchor.ofChars_doubleRoot hplain

end Path

/-- What a written path spells leads where the path leads. -/
theorem FileTree.locate_spelled {p : Path} (h : p.IsWritten) (t : FileTree) (aim : Aim) :
    t.locate aim (.spelled p.toString) = t.locate aim p := by
  by_cases hdot : p.anchor = .relative ∧ p.parts = []
  · obtain ⟨anchor, names⟩ := p
    obtain ⟨rfl, rfl⟩ := hdot
    have hspelled : Path.spelled (Path.mk .relative []).toString = ⟨.relative, ["."]⟩ := by decide
    rw [hspelled]
    unfold locate
    have hstay : walk t aim linkLimit (t.start ⟨.relative, ["."]⟩) ["."]
        = walk t aim linkLimit (t.start ⟨.relative, []⟩) [] := by
      rw [linkLimit, walk]
      exact if_pos (Or.inr rfl)
    rw [hstay]
    rfl
  · rw [Path.spelled_toString h hdot]

/-! ## The files that calls name -/

namespace Call

/-- The text of the path that the call names as its output: the front end's stands
    third from the end, the back end's behind `-o=`, a linker's second, and any
    other one last. -/
def outputText? (c : Call) : Option String :=
  match c.stage with
  | .frontend => c.argv.reverse[2]?
  | .backend => c.argv[3]?.map fun text => String.ofList (text.toList.drop 3)
  | .link => c.argv[2]?
  | .assemble | .merge | .glue | .strip => c.argv.getLast?
  | .probe | .symbols | .other _ => none

/-- The path that the call names as its output. -/
def output? (c : Call) : Option Path := c.outputText?.map Path.spelled

/-- A call that names an output has a program to start. -/
theorem argv_ne_nil {c : Call} {p : Path} (h : c.output? = some p) : c.argv ≠ [] := by
  intro hnil
  unfold output? outputText? at h
  rw [hnil] at h
  split at h <;> exact nomatch h

end Call

/-- The front end is told to write the bitcode. -/
theorem Compiler.output?_frontendCall (c : Compiler) (source : Path) (arch : Arch) (e : EntryPoint)
    (bitcode : Path) :
    (c.frontendCall source arch e bitcode).output? = some (.spelled bitcode.toString) := by
  unfold frontendCall Call.output? Call.outputText?
  simp

/-- The back end is told to write the assembly. -/
theorem Compiler.output?_backendCall (c : Compiler) (source : Path) (arch : Arch)
    (bitcode assembly : Path) :
    (c.backendCall source arch bitcode assembly).output? = some (.spelled assembly.toString) := by
  unfold backendCall Call.output? Call.outputText?
  simp [String.toList_append]

theorem Compiler.output?_assembleCall (c : Compiler) (source : Path) (arch : Arch)
    (assembly object : Path) :
    (c.assembleCall source arch assembly object).output? = some (.spelled object.toString) := rfl

theorem Host.output?_mergeCall (lipo : Path) (objects : List Path) (output : Path)
    (input : Option String) :
    (mergeCall lipo objects output input).output? = some (.spelled output.toString) := by
  unfold mergeCall Call.output? Call.outputText?
  dsimp only
  rw [List.getLast?_append]
  rfl

/-- The compilation of the glue is told to write its object. -/
theorem Linker.output?_glueCall (k : Linker) (name : String) (source object : Path) :
    (k.glueCall name source object).output? = some (.spelled object.toString) := by
  unfold glueCall Call.output? Call.outputText?
  dsimp only
  rw [List.getLast?_append]
  rfl

/-- A link is told to write its output. -/
theorem Linker.output?_linkCall (k : Linker) (output : Path) (objects : List Path)
    (modeFlags libraries extraFlags : List String) :
    (k.linkCall output objects modeFlags libraries extraFlags).output?
      = some (.spelled output.toString) := by
  unfold linkCall Call.output? Call.outputText?
  simp

/-- A strip is told to write its output. -/
theorem Linker.output?_stripCall (k : Linker) (output : Path) (flags : List String) :
    (k.stripCall output flags).output? = some (.spelled output.toString) := by
  unfold stripCall Call.output? Call.outputText?
  dsimp only
  rw [List.getLast?_append]
  rfl

/-! ## Trees that grow richer -/

namespace FileTree

/-- The trees hold the same. -/
structure Same (t t' : FileTree) : Prop where
  workingDirectory : t'.workingDirectory = t.workingDirectory
  entries : ∀ l, t'.entryAt? l = t.entryAt? l

/-- At most a regular file was written where the path leads, at a place that was
    free or held one. -/
structure Wrote (p : Path) (t t' : FileTree) : Prop where
  workingDirectory : t'.workingDirectory = t.workingDirectory
  entries : ∀ l, t'.entryAt? l = t.entryAt? l ∨
    (t.locate .creation p = .ok l ∧ (∀ e, t.entryAt? l = some e → isRegular e = true) ∧
      ∃ e, t'.entryAt? l = some e ∧ isRegular e = true)

/-- Files and directories may stand at places that were free, and files in the
    place of files. -/
structure Enriched (t t' : FileTree) : Prop where
  workingDirectory : t'.workingDirectory = t.workingDirectory
  entries : ∀ l, t'.entryAt? l = t.entryAt? l ∨
    ((∀ e, t.entryAt? l = some e → isRegular e = true) ∧
      ∃ e, t'.entryAt? l = some e ∧ e.isLink = false ∧ (t.entryAt? l ≠ none → isRegular e = true))

variable {t t' t'' : FileTree} {l : Location} {p : Path}

theorem isLink_of_isRegular {e : Entry} (h : isRegular e = true) : e.isLink = false := by
  cases e with
  | file => rfl
  | directory => exact nomatch h
  | link => exact nomatch h

/-- A tree that holds the same is no poorer. -/
theorem Same.enriched (h : Same t t') : Enriched t t' :=
  ⟨h.workingDirectory, fun l => .inl (h.entries l)⟩

theorem Same.symm (h : Same t t') : Same t' t :=
  ⟨h.workingDirectory.symm, fun l => (h.entries l).symm⟩

/-- Nor is one where a file was written. -/
theorem Wrote.enriched (h : Wrote p t t') : Enriched t t' := by
  refine ⟨h.workingDirectory, fun l => ?_⟩
  rcases h.entries l with heq | ⟨-, hfree, e, he, hregular⟩
  · exact .inl heq
  · exact .inr ⟨hfree, e, he, isLink_of_isRegular hregular, fun _ => hregular⟩

/-- Nor is one where a directory was made. -/
theorem Grown.enriched (h : Grown p t t') : Enriched t t' := by
  refine ⟨h.workingDirectory, fun l => ?_⟩
  rcases h.entries l with heq | ⟨hfree, hdirectory, -⟩
  · exact .inl heq
  · exact .inr ⟨by rw [hfree]; exact nofun, .directory, hdirectory, rfl,
        fun hne => absurd hfree hne⟩

/-- What is put at a free place makes the tree richer. -/
theorem enriched_put (h : t.entryAt? l = none) {e : Entry} (he : e.isLink = false) :
    Enriched t (t.put l e) := by
  have hl : l ≠ [] := by
    rintro rfl
    exact nomatch h
  refine ⟨rfl, fun l' => ?_⟩
  by_cases hl' : l' = l
  · subst hl'
    refine .inr ⟨by rw [h]; exact nofun, e, t.entryAt?_put hl e, he, fun hne => absurd h hne⟩
  · exact .inl (t.entryAt?_put_of_ne e hl')

namespace Enriched

theorem refl (t : FileTree) : Enriched t t := ⟨rfl, fun _ => .inl rfl⟩

/-- What grows richer twice is richer. -/
theorem trans (h : Enriched t t') (h' : Enriched t' t'') : Enriched t t'' := by
  refine ⟨h'.workingDirectory.trans h.workingDirectory, fun l => ?_⟩
  rcases h'.entries l with heq' | ⟨hfree', e', he', hlink', hregular'⟩
  · rw [heq']
    exact h.entries l
  · rcases h.entries l with heq | ⟨hfree, e, he, hlink, hregular⟩
    · rw [← heq]
      exact .inr ⟨hfree', e', he', hlink', hregular'⟩
    · exact .inr ⟨hfree, e', he', hlink', fun _ => hregular' (by rw [he]; exact nofun)⟩

/-- **Ways that led somewhere** lead there still. -/
theorem opens (h : Enriched t t') (aim : Aim) : Opens aim t t' := by
  refine ⟨h.workingDirectory, fun l => ?_⟩
  rcases h.entries l with heq | ⟨hfree, e, he, hlink, -⟩
  · exact .inl heq
  · refine .inr ⟨hfree, fun e' he' hislink => ?_⟩
    rw [← Option.some.inj (he.symm.trans he'), hlink] at hislink
    exact nomatch hislink

/-- To grow richer is to spare what is outside of a place, whichever it is. -/
theorem spares (h : Enriched t t') (l₀ : Location) : Spares l₀ t t' := by
  refine ⟨h.workingDirectory, fun l => ?_⟩
  rcases h.entries l with heq | ⟨hfree, e, he, hlink, -⟩
  · exact .inl heq
  · refine .inr ⟨fun e' he' => ?_, .inr hfree⟩
    rw [← Option.some.inj (he.symm.trans he')]
    exact hlink

/-- What was a file is one. -/
theorem regular (h : Enriched t t') {e : Entry} (he : t.entryAt? l = some e)
    (hregular : isRegular e = true) : ∃ e', t'.entryAt? l = some e' ∧ isRegular e' = true := by
  rcases h.entries l with heq | ⟨-, e', he', -, hregular'⟩
  · exact ⟨e, heq.trans he, hregular⟩
  · exact ⟨e', he', hregular' (by rw [he]; exact nofun)⟩

/-- Where no links were, there are none. -/
theorem noLinks (h : Enriched t t') (hlinks : ∀ l e, t.entryAt? l = some e → e.isLink = false) :
    ∀ l e, t'.entryAt? l = some e → e.isLink = false := by
  intro l e he
  rcases h.entries l with heq | ⟨-, e', he', hlink, -⟩
  · exact hlinks l e (heq.symm.trans he)
  · rw [← Option.some.inj (he'.symm.trans he)]
    exact hlink

end Enriched

/-- Trees that hold the same lead every path to the same places. -/
theorem Same.locate_iff (h : Same t t') (aim : Aim) :
    t'.locate aim p = .ok l ↔ t.locate aim p = .ok l :=
  ⟨locate_of_opens (h.symm.enriched.opens aim) (.inl rfl),
    locate_of_opens (h.enriched.opens aim) (.inl rfl)⟩

/-- What a written path spells is written where the path leads. -/
theorem Wrote.of_spelled (hp : p.IsWritten) (h : Wrote (.spelled p.toString) t t') :
    Wrote p t t' := by
  refine ⟨h.workingDirectory, fun l => ?_⟩
  rw [← locate_spelled hp t .creation]
  exact h.entries l

end FileTree

/-- The text is written where the path leads. -/
theorem Disk.wrote_writeText {p : Path} {text : String} {t t' : FileTree}
    (h : (writeText p text).run t = (.ok (), t')) : t.Wrote p t' := by
  obtain ⟨l, executable, hlocate, hfree, rfl⟩ := writeText_ok h
  have hl : l ≠ [] := by
    rintro rfl
    exact nomatch hfree .directory rfl
  refine ⟨rfl, fun l' => ?_⟩
  by_cases hl' : l' = l
  · subst hl'
    exact .inr ⟨hlocate, hfree, _, t.entryAt?_put hl _, rfl⟩
  · exact .inl (t.entryAt?_put_of_ne _ hl')

/-! ## Contracts -/

namespace Toolset

/-- Tools change nothing, or they report success and have written at most the file
    that the call names. -/
def Confined (tools : Toolset) : Prop :=
  ∀ history c files, files.Same (tools history c files).2 ∨
    (∃ output, (tools history c files).1 = .exited 0 output) ∧
      ∃ p, c.output? = some p ∧ files.Wrote p (tools history c files).2

/-- Where tools report success, the file that the call names is there. -/
structure Faithful (tools : Toolset) : Prop where
  confined : tools.Confined
  written : ∀ history c files p output, (tools history c files).1 = .exited 0 output →
    c.output? = some p →
    ∃ e, (tools history c files).2.status p = .ok e ∧ FileTree.isRegular e = true

/-- Tools that write something to the file that a call names, if they can. -/
def marking (text : Call → String) : Toolset := fun _ c files =>
  match c.output? with
  | none => (.exited 0 "", files)
  | some p => match (Disk.writeText p (text c)).run files with
    | (.ok (), files') => (.exited 0 "", files')
    | (.error _, _) => (.exited 1 "", files)

/-- **Tools that mark their output** keep the contract. -/
theorem faithful_marking (text : Call → String) : (marking text).Faithful where
  confined := by
    intro history c files
    unfold marking
    rcases hp : c.output? with _ | p
    · exact .inl ⟨rfl, fun _ => rfl⟩
    · dsimp only
      rcases hwrite : (Disk.writeText p (text c)).run files with ⟨fault | _, files'⟩
      · exact .inl ⟨rfl, fun _ => rfl⟩
      · exact .inr ⟨⟨"", rfl⟩, p, rfl, Disk.wrote_writeText hwrite⟩
  written := by
    intro history c files p output hreply hp
    unfold marking at hreply ⊢
    rw [hp] at hreply ⊢
    dsimp only at hreply ⊢
    rcases hwrite : (Disk.writeText p (text c)).run files with ⟨fault | _, files'⟩
    · rw [hwrite] at hreply
      exact absurd (Reply.exited.inj hreply).1 (by decide)
    · obtain ⟨executable, hstatus⟩ := Disk.status_of_writeText hwrite
      exact ⟨_, hstatus, rfl⟩

section

variable {host : Host} {c : Call} {w v : World}

/-- **A call** has written at most the file that it names. -/
theorem Confined.of_asked (h : Confined host.tools) (c : Call) (program : String) (w : World) :
    w.files.Same (host.asked c program w).files ∨
      ∃ p, c.output? = some p ∧ w.files.Wrote p (host.asked c program w).files :=
  (h w.exchanges c w.files).imp_right And.right

/-- The same of a command that answers. -/
theorem Confined.of_ok (h : Confined host.tools) {result : ToolResult}
    (hrun : (host.run c).run w = (.ok result, v)) :
    w.files.Same v.files ∨ ∃ p, c.output? = some p ∧ w.files.Wrote p v.files := by
  obtain ⟨program, status, output, rfl, -, -, -⟩ := Host.run_hostRun_eq_ok hrun
  exact h.of_asked c program w

/-- A call that fails has written nothing. -/
theorem Confined.of_error (h : Confined host.tools) {e : Failure}
    (hrun : (host.run c).run w = (.error e, v)) : w.files.Same v.files := by
  by_cases hargv : c.argv = []
  · rw [Host.run_hostRun_of_nil host hargv] at hrun
    rw [← show w = v from congrArg Prod.snd hrun]
    exact ⟨rfl, fun _ => rfl⟩
  · obtain ⟨hfiles, hfailed, -⟩ := Host.run_hostRun_eq_error hargv hrun
    rw [hfiles]
    exact (h w.exchanges c w.files).resolve_right fun ⟨⟨output, hzero⟩, _⟩ => hfailed output hzero

/-- A checked call that answers has left the file that it names. -/
theorem Faithful.of_ok (h : Faithful host.tools) {result : ToolResult} {p : Path}
    (hchecked : c.isChecked = true) (hp : c.output? = some p)
    (hrun : (host.run c).run w = (.ok result, v)) :
    ∃ e, v.files.status p = .ok e ∧ FileTree.isRegular e = true := by
  obtain ⟨program, status, output, rfl, hreply, hzero, -⟩ := Host.run_hostRun_eq_ok hrun
  rw [hzero hchecked] at hreply
  exact h.written w.exchanges c w.files p output hreply hp

end

end Toolset

end AheadOfTime
