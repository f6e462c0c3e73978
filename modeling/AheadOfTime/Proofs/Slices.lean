import AheadOfTime.Glue.Render
import AheadOfTime.Proofs.Recognition
import AheadOfTime.Proofs.Wiring
import Mathlib.Data.Finset.Card
import Mathlib.Data.List.Infix

/-! # Listings of objects for several architectures

    The symbols of such an object are listed slice by slice.  Above those of each
    slice stands a header, which names the object and the architecture.  A header is
    a line like any other, and `Slice.headerNames_eq` says when it is taken for a
    symbol: when the object has the name of an entry point.

    What a listing comes to depends on the first name found and on how many different
    ones there are (`run_entryPoint?_eq_iff`), so `fatListing_alike_iff` can say when
    the headers make no difference. -/

namespace AheadOfTime

/-! ## Lines, one after the other -/

namespace Text

/-- A character that does not end a line together with the next one. -/
theorem lines_cons_cons {c d : Char} {rest : List Char} (hpair : c = '\r' → d ≠ '\n') :
    lines (c :: d :: rest) =
      if isLineEnd c then [] :: lines (d :: rest) else consLine c (lines (d :: rest)) :=
  lines.eq_3 _ _ fun _ hc hlater => hpair hc (List.cons.inj hlater).1

/-- A line feed ends a line, which is new unless a carriage return has ended it. -/
theorem lines_append_lineFeed (text more : List Char) :
    ∃ gap, (∀ line ∈ gap, line = []) ∧
      lines (text ++ '\n' :: more) = lines text ++ (gap ++ lines more) := by
  fun_induction lines text with
  | case1 => exact ⟨[[]], List.forall_mem_singleton.mpr rfl, rfl⟩
  | case2 rest ih =>
      obtain ⟨gap, hgap, hlines⟩ := ih
      refine ⟨gap, hgap, ?_⟩
      rw [List.cons_append, List.cons_append, lines, hlines, List.cons_append]
  | case3 c rest hpair hend ih =>
      cases rest with
      | nil =>
          -- a carriage return and the line feed are one line end, and others are two
          by_cases hreturn : c = '\r'
          · rw [hreturn]
            exact ⟨[], List.forall_mem_nil _, rfl⟩
          · refine ⟨[[]], List.forall_mem_singleton.mpr rfl, ?_⟩
            rw [List.singleton_append, lines_cons_cons fun hc => absurd hc hreturn, if_pos hend]
            rfl
      | cons d rest =>
          obtain ⟨gap, hgap, hlines⟩ := ih
          refine ⟨gap, hgap, ?_⟩
          have hpair' : c = '\r' → d ≠ '\n' := fun hc hd => hpair rest hc (by rw [hd])
          rw [List.cons_append, List.cons_append, lines_cons_cons hpair', if_pos hend,
            ← List.cons_append, hlines, List.cons_append]
  | case4 c rest hpair hend ih =>
      cases rest with
      | nil =>
          have hc : c ≠ '\r' := by
            rintro rfl
            exact hend rfl
          refine ⟨[], List.forall_mem_nil _, ?_⟩
          rw [List.singleton_append, lines_cons_cons fun h => absurd h hc, if_neg hend]
          rfl
      | cons d rest =>
          obtain ⟨gap, hgap, hlines⟩ := ih
          refine ⟨gap, hgap, ?_⟩
          have hpair' : c = '\r' → d ≠ '\n' := fun hc hd => hpair rest hc (by rw [hd])
          rw [List.cons_append, List.cons_append, lines_cons_cons hpair', if_neg hend,
            ← List.cons_append, hlines, lines_eq (List.cons_ne_nil d rest)]
          rfl

/-- A text without line ends is one line. -/
theorem lines_eq_singleton {line : List Char} (hplain : ∀ c ∈ line, isLineEnd c = false)
    (hne : line ≠ []) : lines line = [line] := by
  have hkeep : ∀ c ∈ line, (!isLineEnd c) = true := by
    intro c hc
    rw [hplain c hc]
    rfl
  rw [lines_eq hne, firstLine, fromEnd, List.takeWhile_eq_self_iff.mpr hkeep,
    List.dropWhile_eq_nil_iff.mpr hkeep]
  rfl

/-- White space at the end does not matter to what stands in front of it. -/
theorem exists_strip_append (cs : List Char) :
    ∃ trail, (∀ c ∈ trail, isBlank c = true) ∧ cs.dropWhile isBlank = strip cs ++ trail := by
  refine ⟨((cs.dropWhile isBlank).reverse.takeWhile isBlank).reverse, fun c hc => ?_, ?_⟩
  · exact List.mem_takeWhile_imp (List.mem_reverse.mp hc)
  · rw [strip, dropEndWhile, ← List.reverse_append, List.takeWhile_append_dropWhile,
      List.reverse_reverse]

/-- Where a text ends with another character, there is white space only at its start. -/
theorem strip_eq_dropWhile {cs : List Char} {last : Char} (hlast : cs.getLast? = some last)
    (hend : isBlank last = false) : strip cs = cs.dropWhile isBlank := by
  obtain ⟨trail, htrail, hcs⟩ := exists_strip_append cs
  cases htail : trail.getLast? with
  | none => rw [hcs, List.getLast?_eq_none_iff.mp htail, List.append_nil]
  | some c =>
      have hsuffix : trail <:+ cs := (hcs ▸ List.suffix_append _ trail).trans
        (List.dropWhile_suffix isBlank)
      obtain ⟨before, rfl⟩ := hsuffix
      rw [List.getLast?_append, htail, Option.some_or] at hlast
      have := htrail c (List.mem_of_getLast? htail)
      rw [Option.some.inj hlast, hend] at this
      exact nomatch this

/-- Nothing is left of white space, and something of everything else. -/
theorem strip_eq_nil_iff (cs : List Char) : strip cs = [] ↔ ∀ c ∈ cs, isBlank c = true := by
  obtain ⟨trail, htrail, hcs⟩ := exists_strip_append cs
  rw [← List.dropWhile_eq_nil_iff]
  constructor
  · intro hnil
    rw [hnil, List.nil_append] at hcs
    cases hdrop : cs.dropWhile isBlank with
    | nil => rfl
    | cons c later =>
        -- what is not dropped starts with another character
        have hword := List.head?_dropWhile_not isBlank cs
        rw [hdrop] at hword
        replace hword : isBlank c = false := hword
        rw [htrail c (hcs ▸ hdrop ▸ List.mem_cons_self)] at hword
        exact nomatch hword
  · intro hnil
    rw [hnil] at hcs
    exact (List.append_eq_nil_iff.mp hcs.symm).1

end Text

/-! ## Where a word can stand -/

section

variable {α : Type} {word before after : List α} {sep : α}

/-- A word without the separator starts before it, or not at all. -/
theorem prefix_append_cons_iff (h : sep ∉ word) :
    word <+: before ++ sep :: after ↔ word <+: before := by
  constructor
  · rintro ⟨right, heq⟩
    rcases List.append_eq_append_iff.mp heq with ⟨gap, rfl, -⟩ | ⟨gap, rfl, hgap⟩
    · exact List.prefix_append word gap
    · cases gap with
      | nil => rw [List.append_nil]
      | cons c gap =>
          obtain ⟨rfl, -⟩ := List.cons.inj hgap
          exact absurd (List.mem_append_right before List.mem_cons_self) h
  · exact fun hstart => hstart.trans (List.prefix_append before _)

/-- A word without the separator stands on one side of it. -/
theorem infix_append_cons_iff (h : sep ∉ word) :
    word <:+: before ++ sep :: after ↔ word <:+: before ∨ word <:+: after := by
  constructor
  · rintro ⟨left, right, heq⟩
    rw [List.append_assoc] at heq
    rcases List.append_eq_append_iff.mp heq with ⟨gap, rfl, hgap⟩ | ⟨gap, rfl, hgap⟩
    · -- the word starts before the separator, so it ends there too
      have hstart : word <+: gap ++ sep :: after := ⟨right, hgap⟩
      exact .inl (((prefix_append_cons_iff h).mp hstart).isInfix.trans
        (List.suffix_append left gap).isInfix)
    · cases gap with
      | nil =>
          have hstart : word <+: [] ++ sep :: after := ⟨right, hgap.symm⟩
          exact .inl (((prefix_append_cons_iff h).mp hstart).isInfix.trans (List.nil_infix))
      | cons c gap =>
          obtain ⟨rfl, rfl⟩ := List.cons.inj hgap
          exact .inr ⟨gap, right, List.append_assoc gap word right⟩
  · rintro (hbefore | hafter)
    · exact hbefore.trans (List.prefix_append before _).isInfix
    · exact hafter.trans ((List.suffix_cons sep after).trans (List.suffix_append before _)).isInfix

/-- A word without the separators stands on one side of them. -/
theorem infix_append_append_iff {seps : List α} (hne : seps ≠ []) (h : ∀ sep ∈ seps, sep ∉ word) :
    word <:+: before ++ (seps ++ after) ↔ word <:+: before ∨ word <:+: after := by
  induction seps generalizing before with
  | nil => exact absurd rfl hne
  | cons sep later ih =>
      obtain ⟨hsep, hlater⟩ := List.forall_mem_cons.mp h
      rw [List.cons_append, infix_append_cons_iff hsep]
      cases later with
      | nil => rw [List.nil_append]
      | cons next later =>
          have hnone : word <:+: [] → word <:+: before := fun hword => hword.trans List.nil_infix
          rw [← List.nil_append (next :: later ++ after), ih (List.cons_ne_nil next later) hlater,
            ← or_assoc, or_iff_left_of_imp hnone]

end

/-! ## Counting first occurrences -/

theorem length_distinct {α : Type} [DecidableEq α] (l : List α) :
    (distinct l).length = l.toFinset.card := by
  rw [← List.toFinset_card_of_nodup (nodup_distinct l)]
  congr 1
  ext a
  rw [List.mem_toFinset, List.mem_toFinset, mem_distinct]

/-- **Nothing is lost by leaving elements out** just when each of them is elsewhere. -/
theorem length_distinct_eq_iff {α : Type} [DecidableEq α] {few many : List α} (h : few ⊆ many) :
    (distinct few).length = (distinct many).length ↔ many ⊆ few := by
  have hfew : few.toFinset ⊆ many.toFinset := fun a ha =>
    List.mem_toFinset.mpr (h (List.mem_toFinset.mp ha))
  rw [length_distinct, length_distinct]
  constructor
  · intro hlength a ha
    have hsame := Finset.eq_of_subset_of_card_le hfew hlength.ge
    exact List.mem_toFinset.mp (hsame ▸ List.mem_toFinset.mpr ha)
  · intro hmany
    refine le_antisymm (Finset.card_le_card hfew) (Finset.card_le_card fun a ha => ?_)
    exact List.mem_toFinset.mpr (hmany (List.mem_toFinset.mp ha))

namespace SymbolListing

open Glue (unlines)

/-! ## What a listing comes to -/

/-- What the first candidate comes to. -/
def answer (first : Option String) : Except Failure (Option EntryPoint) :=
  match first with
  | none => .ok none
  | some symbol => ((EntryPoint.ofSymbol symbol).map some).mapError Failure.problem

/-- The first candidate is known from what it comes to. -/
theorem answer_injective {first other : Option String} (h : answer first = answer other) :
    first = other := by
  unfold answer EntryPoint.ofSymbol at h
  rcases first with _ | symbol <;> rcases other with _ | symbol'
  · rfl
  · dsimp only at h
    split at h <;> cases h
  · dsimp only at h
    split at h <;> cases h
  · dsimp only at h
    split at h <;> split at h
    · exact congrArg some (congrArg EntryPoint.symbol (Option.some.inj (Except.ok.inj h)))
    · cases h
    · cases h
    · exact congrArg some
        (Problem.invalidEntryPoint.inj (Failure.problem.inj (Except.error.inj h)))

/-- The warning about the candidates, if there are several. -/
def warnings (source : Option Path) (first : Option String) (count : Nat) : List Notice :=
  match first with
  | none => []
  | some symbol => if 2 ≤ count then [.severalEntryPoints source count symbol] else []

theorem run_entryPoint?_eq (listing : String) (source : Option Path) (w : World) :
    (entryPoint? listing source).run w = (answer (candidates listing).head?,
      { w with notices := w.notices ++
          warnings source (candidates listing).head? (candidates listing).length }) := by
  rw [run_entryPoint?]
  rcases candidates listing with _ | ⟨symbol, _ | ⟨other, others⟩⟩
  · simp only [List.head?_nil, warnings, List.append_nil]
    rfl
  · have hone : ¬ 2 ≤ [symbol].length := Nat.not_succ_le_self 1
    simp only [List.head?_cons, warnings, hone, if_false, List.append_nil]
    rfl
  · have hseveral : 2 ≤ (symbol :: other :: others).length := Nat.le_add_left 2 _
    simp only [List.head?_cons, warnings, hseveral, if_true]
    rfl

/-- **A listing comes to** its first candidate and the number of its candidates: to
    the same entry point or complaint, and to the same warning. -/
theorem run_entryPoint?_eq_iff (listing other : String) (source : Option Path) (w : World) :
    (entryPoint? listing source).run w = (entryPoint? other source).run w ↔
      (candidates listing).head? = (candidates other).head? ∧
        (candidates listing).length = (candidates other).length := by
  rw [run_entryPoint?_eq, run_entryPoint?_eq, Prod.mk.injEq]
  constructor
  · rintro ⟨hanswer, hworld⟩
    have hhead := answer_injective hanswer
    have hwarnings := List.append_cancel_left (congrArg World.notices hworld)
    refine ⟨hhead, ?_⟩
    rcases hfirst : (candidates listing).head? with _ | symbol
    · rw [hfirst] at hhead
      rw [List.head?_eq_none_iff.mp hfirst, List.head?_eq_none_iff.mp hhead.symm]
    · rw [hfirst] at hhead
      rw [hfirst, ← hhead] at hwarnings
      have hpos := List.length_pos_of_mem (List.mem_of_head? hfirst)
      have hpos' := List.length_pos_of_mem (List.mem_of_head? hhead.symm)
      -- the warnings tell the numbers, and without them both listings have one candidate
      dsimp only [warnings] at hwarnings
      split at hwarnings <;> split at hwarnings
      · exact (Notice.severalEntryPoints.inj (List.cons.inj hwarnings).1).2.1
      · exact nomatch hwarnings
      · exact nomatch hwarnings
      · omega
  · rintro ⟨hhead, hlength⟩
    rw [hhead, hlength]
    exact ⟨rfl, rfl⟩

/-! ## Names on joined lines -/

theorem toList_unlines_cons (line : String) (later : List String) :
    (unlines (line :: later)).toList = line.toList ++ '\n' :: (unlines later).toList := by
  simp [unlines, String.toList_join]

theorem candidateLines_append_lineFeed (text more : List Char) :
    candidateLines (text ++ '\n' :: more) = candidateLines text ++ candidateLines more := by
  obtain ⟨gap, hgap, hlines⟩ := Text.lines_append_lineFeed text more
  have hnone : (gap.map nameOfLine).filter isCandidate = [] := by
    refine List.filter_eq_nil_iff.mpr fun name hname => ?_
    obtain ⟨line, hline, rfl⟩ := List.mem_map.mp hname
    rw [hgap line hline]
    decide
  rw [candidateLines, hlines, List.map_append, List.map_append, List.filter_append,
    List.filter_append, hnone, List.nil_append]
  rfl

/-- Every line is looked at on its own. -/
theorem candidateLines_unlines (lines : List String) :
    candidateLines (unlines lines).toList
      = lines.flatMap fun line => candidateLines line.toList := by
  induction lines with
  | nil => rfl
  | cons line later ih =>
      rw [toList_unlines_cons, candidateLines_append_lineFeed, ih, List.flatMap_cons]

/-- **A name goes on** behind a blank: with what stands there up to the end of the
    line, if that starts and ends with other characters. -/
theorem nameOfLine_append_blank (cs : List Char) {rest : List Char} {first last : Char}
    (hfirst : rest.head? = some first) (hscore : first ≠ '_')
    (hblank : Text.isBlank first = false) (hlast : rest.getLast? = some last)
    (hend : Text.isBlank last = false) :
    ∃ gap, (∀ c ∈ gap, Text.isBlank c = true) ∧
      nameOfLine (cs ++ ' ' :: rest) = nameOfLine cs ++ (gap ++ rest) := by
  have hline : (cs ++ ' ' :: rest).getLast? = some last := by
    rw [List.getLast?_append_of_ne_nil _ (List.cons_ne_nil ' ' rest), List.getLast?_cons, hlast]
    rfl
  obtain ⟨c, later, rfl⟩ : ∃ c later, rest = c :: later :=
    List.exists_cons_of_ne_nil (List.ne_nil_of_mem (List.mem_of_head? hfirst))
  cases Option.some.inj hfirst
  obtain ⟨trail, htrail, hcs⟩ := Text.exists_strip_append cs
  unfold nameOfLine
  rw [Text.strip_eq_dropWhile hline hend]
  rcases hstrip : Text.strip cs with _ | ⟨d, core⟩
  · -- nothing but white space stands in front
    have hall := (Text.strip_eq_nil_iff cs).mp hstrip
    refine ⟨[], List.forall_mem_nil _, ?_⟩
    rw [List.dropWhile_append_of_pos hall, List.dropWhile_cons_of_pos (by decide),
      List.dropWhile_cons_of_neg (by rw [hblank]; decide)]
    split
    · rename_i heq
      exact absurd (List.cons.inj heq).1 hscore
    · rfl
  · -- what was stripped from the end stands before the blank again
    have hdrop : (cs.dropWhile Text.isBlank).isEmpty = false := by
      rw [hcs, hstrip]
      rfl
    refine ⟨trail ++ [' '], ?_, ?_⟩
    · exact List.forall_mem_append.mpr ⟨htrail, List.forall_mem_singleton.mpr (by decide)⟩
    · rw [List.dropWhile_append, hdrop, hcs, hstrip, if_neg Bool.false_ne_true]
      simp only [List.cons_append, List.append_assoc]
      split
      · rename_i heq
        obtain ⟨rfl, rfl⟩ := List.cons.inj heq
        rfl
      · rename_i hd
        split
        · rename_i heq
          obtain ⟨rfl, rfl⟩ := List.cons.inj heq
          exact absurd rfl (hd _)
        · rfl

end SymbolListing

/-! ## Slices -/

open SymbolListing (candidateLines candidates isCandidate nameOfLine)

/-- The symbols of an object for one of its architectures, a line each. -/
structure Slice where
  arch : String
  symbols : List String

namespace Slice

/-- The line above the symbols of a slice. -/
def header (object : Path) (s : Slice) : String :=
  object.toString ++ " (for architecture " ++ s.arch ++ "):"

/-- The lines about a slice. -/
def lines (object : Path) (s : Slice) : List String := "" :: s.header object :: s.symbols

/-- The names that are found on the header of a slice. -/
def headerNames (object : Path) (s : Slice) : List (List Char) :=
  candidateLines (s.header object).toList

/-- The names that are found among the symbols of a slice. -/
def symbolNames (s : Slice) : List (List Char) :=
  s.symbols.flatMap fun line => candidateLines line.toList

/-- The header is one line: there are no line ends in the names it gives. -/
def HasOneLine (object : Path) (s : Slice) : Prop :=
  (∀ c ∈ object.toString.toList, Text.isLineEnd c = false) ∧
    ∀ c ∈ s.arch.toList, Text.isLineEnd c = false

instance (object : Path) (s : Slice) : Decidable (s.HasOneLine object) :=
  @instDecidableAnd _ _ (List.decidableBAll _ _) (List.decidableBAll _ _)

/-- The object has the name of an entry point, and the architecture does not hide it. -/
def IsMisleading (object : Path) (s : Slice) : Prop :=
  isCandidate (nameOfLine object.toString.toList) = true ∧
    ¬ EntryPoint.collectiveMark.toList <:+: s.arch.toList

instance (object : Path) (s : Slice) : Decidable (s.IsMisleading object) :=
  inferInstanceAs (Decidable (_ ∧ _))

/-- What stands behind the object on the header. -/
abbrev headerEnd (s : Slice) : List Char :=
  "(for architecture ".toList ++ (s.arch.toList ++ "):".toList)

theorem toList_header (object : Path) (s : Slice) :
    (s.header object).toList = object.toString.toList ++ ' ' :: s.headerEnd := by
  simp [header, headerEnd, String.toList_append]

theorem exists_nameOfLine_header (object : Path) (s : Slice) :
    ∃ gap, (∀ c ∈ gap, Text.isBlank c = true) ∧ nameOfLine (s.header object).toList
      = nameOfLine object.toString.toList ++ (gap ++ s.headerEnd) := by
  have hlast : s.headerEnd.getLast? = some ':' := by
    rw [headerEnd, ← List.append_assoc]
    exact List.getLast?_append_of_ne_nil _ (by decide)
  have hfirst : s.headerEnd.head? = some '(' := rfl
  rw [toList_header]
  exact SymbolListing.nameOfLine_append_blank object.toString.toList hfirst (by decide)
    (by decide) hlast (by decide)

/-- **A header is taken for a symbol** just when it is misleading. -/
theorem isCandidate_header (object : Path) (s : Slice) :
    isCandidate (nameOfLine (s.header object).toList) = true ↔ s.IsMisleading object := by
  obtain ⟨gap, hgap, hname⟩ := s.exists_nameOfLine_header object
  -- between the names there are blanks and small letters, of which the marks have none
  have hseps : ∀ sep ∈ gap ++ "(for architecture ".toList,
      sep ∉ EntryPoint.collectiveMark.toList := by
    refine List.forall_mem_append.mpr ⟨fun c hc hin => ?_,
      List.all_iff_forall_prop.mp (by decide)⟩
    have hword : ∀ d ∈ EntryPoint.collectiveMark.toList, Text.isBlank d = false :=
      List.all_iff_forall_prop.mp (by decide)
    exact absurd (hgap c hc) (by rw [hword c hin]; decide)
  have hmark : EntryPoint.mark.toList ⊆ EntryPoint.collectiveMark.toList := by decide
  obtain ⟨sep, later, hcons⟩ := List.exists_cons_of_ne_nil (l := gap ++ "(for architecture ".toList)
    (List.append_ne_nil_of_right_ne_nil gap (by decide))
  have hsep : sep ∉ EntryPoint.mark.toList := fun hin =>
    hseps sep (hcons ▸ List.mem_cons_self) (hmark hin)
  have hclosing : ∀ sep ∈ "):".toList, sep ∉ EntryPoint.collectiveMark.toList :=
    List.all_iff_forall_prop.mp (by decide)
  have harch : EntryPoint.collectiveMark.toList <:+: s.arch.toList ++ "):".toList
      ↔ EntryPoint.collectiveMark.toList <:+: s.arch.toList := by
    rw [← List.append_nil "):".toList, infix_append_append_iff (by decide) hclosing]
    exact or_iff_left (by decide)
  have hstart : EntryPoint.mark.toList <+: nameOfLine (s.header object).toList
      ↔ EntryPoint.mark.toList <+: nameOfLine object.toString.toList := by
    rw [hname, headerEnd, ← List.append_assoc gap, hcons, List.cons_append,
      prefix_append_cons_iff hsep]
  have hcollective : EntryPoint.collectiveMark.toList <:+: nameOfLine (s.header object).toList
      ↔ EntryPoint.collectiveMark.toList <:+: nameOfLine object.toString.toList ∨
        EntryPoint.collectiveMark.toList <:+: s.arch.toList := by
    rw [hname, headerEnd, ← List.append_assoc gap,
      infix_append_append_iff (hcons ▸ List.cons_ne_nil sep later) hseps, harch]
  rw [IsMisleading, SymbolListing.isCandidate_iff, SymbolListing.isCandidate_iff, hstart,
    hcollective, not_or, and_assoc]

/-- **The names found on a header** are none, or one that starts with the object's. -/
theorem headerNames_eq {object : Path} {s : Slice} (h : s.HasOneLine object) :
    s.headerNames object =
      if s.IsMisleading object then [nameOfLine (s.header object).toList] else [] := by
  have hplain : ∀ c ∈ (s.header object).toList, Text.isLineEnd c = false := by
    rw [toList_header]
    refine List.forall_mem_append.mpr ⟨h.1, List.forall_mem_cons.mpr ⟨by decide, ?_⟩⟩
    refine List.forall_mem_append.mpr ⟨List.all_iff_forall_prop.mp (by decide), ?_⟩
    exact List.forall_mem_append.mpr ⟨h.2, List.all_iff_forall_prop.mp (by decide)⟩
  have hne : (s.header object).toList ≠ [] := by
    rw [toList_header]
    exact List.append_ne_nil_of_right_ne_nil _ (List.cons_ne_nil ' ' _)
  rw [headerNames, candidateLines, Text.lines_eq_singleton hplain hne, List.map_singleton]
  by_cases hmisleading : s.IsMisleading object
  · rw [if_pos hmisleading, List.filter_cons_of_pos ((s.isCandidate_header object).mpr hmisleading),
      List.filter_nil]
  · rw [if_neg hmisleading,
      List.filter_cons_of_neg fun hlooks => hmisleading ((s.isCandidate_header object).mp hlooks),
      List.filter_nil]

end Slice

namespace SymbolListing

open Glue (unlines)

/-- The listing of an object slice by slice. -/
def fatListing (object : Path) (slices : List Slice) : String :=
  unlines (slices.flatMap fun s => s.lines object)

/-- The symbols of all slices without the headers. -/
def plainListing (slices : List Slice) : String :=
  unlines (slices.flatMap Slice.symbols)

theorem candidateLines_fatListing (object : Path) (slices : List Slice) :
    candidateLines (fatListing object slices).toList
      = slices.flatMap fun s => s.headerNames object ++ s.symbolNames := by
  rw [fatListing, candidateLines_unlines, List.flatMap_assoc]
  rfl

theorem candidateLines_plainListing (slices : List Slice) :
    candidateLines (plainListing slices).toList = slices.flatMap Slice.symbolNames := by
  rw [plainListing, candidateLines_unlines, List.flatMap_assoc]
  rfl

/-- Headers hide no symbol. -/
theorem symbolNames_subset (object : Path) (slices : List Slice) :
    slices.flatMap Slice.symbolNames
      ⊆ slices.flatMap fun s => s.headerNames object ++ s.symbolNames := by
  intro name hname
  obtain ⟨s, hs, hname⟩ := List.mem_flatMap.mp hname
  exact List.mem_flatMap.mpr ⟨s, hs, List.mem_append_right _ hname⟩

/-- **The headers make no difference** just when every name that is found on one is
    found among the symbols too, and the first name is found among the symbols first. -/
theorem run_fatListing_eq_iff (object : Path) (slices : List Slice) (source : Option Path)
    (w : World) :
    (entryPoint? (fatListing object slices) source).run w
        = (entryPoint? (plainListing slices) source).run w ↔
      (∀ s ∈ slices, s.headerNames object ⊆ slices.flatMap Slice.symbolNames) ∧
        (slices.flatMap fun s => s.headerNames object ++ s.symbolNames).head?
          = (slices.flatMap Slice.symbolNames).head? := by
  have hsubset := symbolNames_subset object slices
  have hmany : (slices.flatMap fun s => s.headerNames object ++ s.symbolNames)
        ⊆ slices.flatMap Slice.symbolNames ↔
      ∀ s ∈ slices, s.headerNames object ⊆ slices.flatMap Slice.symbolNames := by
    constructor
    · intro h s hs name hname
      exact h (List.mem_flatMap.mpr ⟨s, hs, List.mem_append_left _ hname⟩)
    · intro h name hname
      obtain ⟨s, hs, hname⟩ := List.mem_flatMap.mp hname
      rcases List.mem_append.mp hname with hheader | hsymbol
      · exact h s hs hheader
      · exact List.mem_flatMap.mpr ⟨s, hs, hsymbol⟩
  rw [run_entryPoint?_eq_iff, candidates, candidates, candidateLines_fatListing,
    candidateLines_plainListing, List.head?_map, List.head?_map, List.length_map, List.length_map,
    head?_distinct, head?_distinct,
    (Option.map_injective fun _ _ => String.ofList_injective).eq_iff,
    eq_comm (a := (distinct _).length), length_distinct_eq_iff hsubset, hmany, and_comm]

/-- A name has the characters of its line. -/
theorem nameOfLine_subset (line : List Char) : nameOfLine line ⊆ line := by
  obtain ⟨trail, -, hline⟩ := Text.exists_strip_append line
  have hstrip : Text.strip line ⊆ line := fun c hc =>
    (List.dropWhile_suffix Text.isBlank).subset (hline ▸ List.mem_append_left trail hc)
  unfold nameOfLine
  split
  · rename_i rest heq
    exact fun c hc => hstrip (heq ▸ List.mem_cons_of_mem '_' hc)
  · exact hstrip

/-- The names that are found have the characters of the listing. -/
theorem subset_of_mem_candidateLines {listing name : List Char}
    (h : name ∈ candidateLines listing) : name ⊆ listing := by
  obtain ⟨line, hline, rfl⟩ := List.mem_map.mp (List.mem_filter.mp h).1
  obtain ⟨-, before, after, rfl, -, -⟩ := Text.isLine_of_mem_lines hline
  exact fun c hc => List.mem_append_right before
    (List.mem_append_left after (nameOfLine_subset line hc))

/-- Where symbols have no blanks in them, no header is found among them. -/
theorem not_mem_symbolNames (object : Path) {slices : List Slice}
    (hsymbols : ∀ s ∈ slices, ∀ line ∈ s.symbols, ' ' ∉ line.toList) (s : Slice) :
    nameOfLine (s.header object).toList ∉ slices.flatMap Slice.symbolNames := by
  intro hin
  obtain ⟨t, ht, hin⟩ := List.mem_flatMap.mp hin
  obtain ⟨line, hline, hin⟩ := List.mem_flatMap.mp hin
  obtain ⟨gap, -, hname⟩ := s.exists_nameOfLine_header object
  refine hsymbols t ht line hline (subset_of_mem_candidateLines hin ?_)
  rw [hname]
  exact List.mem_append_right _ (List.mem_append_right gap
    (List.mem_append_left _ (by decide)))

/-- **When headers make a difference.**  A listing slice by slice comes to the same as
    the symbols alone, the same entry point or complaint and the same warnings, just
    when every name that is found on a header is found among the symbols too, and the
    first name is found among the symbols first.  Where names stand on one line and
    symbols have no blanks in them, that is when no header is misleading: when the
    object does not have the name of an entry point. -/
theorem fatListing_alike_iff (object : Path) (slices : List Slice) (source : Option Path)
    (w : World) :
    ((entryPoint? (fatListing object slices) source).run w
        = (entryPoint? (plainListing slices) source).run w ↔
      (∀ s ∈ slices, s.headerNames object ⊆ slices.flatMap Slice.symbolNames) ∧
        (slices.flatMap fun s => s.headerNames object ++ s.symbolNames).head?
          = (slices.flatMap Slice.symbolNames).head?) ∧
    ((∀ s ∈ slices, s.HasOneLine object) →
      (∀ s ∈ slices, ∀ line ∈ s.symbols, ' ' ∉ line.toList) →
      ((entryPoint? (fatListing object slices) source).run w
          = (entryPoint? (plainListing slices) source).run w ↔
        ∀ s ∈ slices, ¬ s.IsMisleading object)) := by
  refine ⟨run_fatListing_eq_iff object slices source w, fun hline hsymbols => ?_⟩
  rw [run_fatListing_eq_iff]
  constructor
  · rintro ⟨hfound, -⟩ s hs hmisleading
    refine not_mem_symbolNames object hsymbols s (hfound s hs ?_)
    rw [Slice.headerNames_eq (hline s hs), if_pos hmisleading]
    exact List.mem_cons_self
  · intro hharmless
    have hnone : ∀ s ∈ slices, s.headerNames object = [] := fun s hs => by
      rw [Slice.headerNames_eq (hline s hs), if_neg (hharmless s hs)]
    refine ⟨fun s hs => hnone s hs ▸ List.nil_subset _, congrArg List.head? ?_⟩
    exact List.flatMap_congr fun s hs => by rw [hnone s hs, List.nil_append]

/-- The slices of an object with one entry point. -/
def twoSlices : List Slice :=
  [⟨"i386", ["_main", "_MREP_ABC"]⟩, ⟨"x86_64", ["_main", "_MREP_ABC"]⟩]

/-- A world without files. -/
def bareWorld : World where
  files := ⟨[], []⟩

theorem fatListing_alike_misleading :
    (∀ s ∈ twoSlices, s.HasOneLine (.ofString "MREP_x.o")) ∧
      (∀ s ∈ twoSlices, ∀ line ∈ s.symbols, ' ' ∉ line.toList) ∧
      (entryPoint? (fatListing (.ofString "app.o") twoSlices) none).run bareWorld
        = (entryPoint? (plainListing twoSlices) none).run bareWorld ∧
      (entryPoint? (fatListing (.ofString "MREP_x.o") twoSlices) none).run bareWorld
        ≠ (entryPoint? (plainListing twoSlices) none).run bareWorld := by
  have hsymbols : ∀ s ∈ twoSlices, ∀ line ∈ s.symbols, ' ' ∉ line.toList := by decide
  have hharmless : ∀ s ∈ twoSlices, s.HasOneLine (.ofString "app.o") := by decide
  have hline : ∀ s ∈ twoSlices, s.HasOneLine (.ofString "MREP_x.o") := by decide
  refine ⟨hline, hsymbols, ?_, fun hsame => ?_⟩
  · exact ((fatListing_alike_iff _ _ none bareWorld).2 hharmless hsymbols).mpr fun s _ h =>
      absurd h.1 (by decide)
  · exact ((fatListing_alike_iff _ _ none bareWorld).2 hline hsymbols).mp hsame
      ⟨"i386", ["_main", "_MREP_ABC"]⟩ List.mem_cons_self
      ⟨by decide, by rw [← occursIn_iff_infix]; decide⟩

/-- A misleading header comes first, and is no identifier. -/
example : ((entryPoint? (fatListing (.ofString "MREP_x.o") twoSlices) none).run bareWorld).1 =
    .error (.problem (.invalidEntryPoint "MREP_x.o (for architecture i386):")) := rfl

end SymbolListing

end AheadOfTime
