import AheadOfTime.Proofs.Slices

/-! # The names in a listing

    A listing is cut into lines, white space and one underscore are taken off each
    line, and the names with the mark of entry points are kept.  This is said here
    of the whole list of names, without cutting and taking off: `Text.CutInto` has
    a rule for each way in which a line ends, `Text.TrimsTo` and `Gives` say what
    stands around a name, and `finds_iff` says that these are the names of the
    model.

    The result is decided by the first name, and the warning by the first name and
    the number of different ones (`comesTo_of_finds`).  Lines that are added behind
    change neither if they have been there before (`entryPoint?_of_found`). -/

namespace AheadOfTime

/-! ## Cutting into lines -/

namespace Text

/-- The text is cut into the lines.  A carriage return takes a line feed behind it
    along, and behind the last line end there is no line unless there is text. -/
inductive CutInto : List Char → List (List Char) → Prop where
  | none : CutInto [] []
  | last {line : List Char} : line ≠ [] → (∀ c ∈ line, isLineEnd c = false) →
      CutInto line [line]
  | single {line rest : List Char} {c : Char} {later : List (List Char)} :
      (∀ d ∈ line, isLineEnd d = false) → isLineEnd c = true →
      (c = '\r' → rest.head? ≠ some '\n') → CutInto rest later →
      CutInto (line ++ c :: rest) (line :: later)
  | pair {line rest : List Char} {later : List (List Char)} :
      (∀ d ∈ line, isLineEnd d = false) → CutInto rest later →
      CutInto (line ++ '\r' :: '\n' :: rest) (line :: later)

/-- A character that ends no line goes to the front of the first one. -/
theorem CutInto.cons {c : Char} (hc : isLineEnd c = false) {rest : List Char}
    {later : List (List Char)} (h : CutInto rest later) :
    CutInto (c :: rest) (consLine c later) := by
  cases h with
  | none => exact .last (List.cons_ne_nil c []) (List.forall_mem_singleton.mpr hc)
  | last _ hplain => exact .last (List.cons_ne_nil c _) (List.forall_mem_cons.mpr ⟨hc, hplain⟩)
  | single hplain hend hpair hrest =>
      exact .single (List.forall_mem_cons.mpr ⟨hc, hplain⟩) hend hpair hrest
  | pair hplain hrest => exact .pair (List.forall_mem_cons.mpr ⟨hc, hplain⟩) hrest

/-- The lines of the model are cut as they should be. -/
theorem cutInto_lines (text : List Char) : CutInto text (lines text) := by
  fun_induction lines text with
  | case1 => exact .none
  | case2 rest ih =>
      show CutInto ([] ++ '\r' :: '\n' :: rest) _
      exact .pair (List.forall_mem_nil _) ih
  | case3 c rest hpair hend ih =>
      show CutInto ([] ++ c :: rest) _
      refine .single (List.forall_mem_nil _) hend (fun hc hhead => ?_) ih
      obtain ⟨later, hlater⟩ := List.head?_eq_some_iff.mp hhead
      exact hpair later hc hlater
  | case4 c rest hpair hend ih => exact ih.cons (Bool.not_eq_true _ ▸ hend)

/-- A line is cut off where it ends. -/
theorem lines_append_cons {line rest : List Char} {c : Char}
    (hplain : ∀ d ∈ line, isLineEnd d = false) (hend : isLineEnd c = true) :
    lines (line ++ c :: rest) = line :: lines (afterEnd (c :: rest)) := by
  have hkeep : ∀ d ∈ line, (!isLineEnd d) = true := by
    intro d hd
    rw [hplain d hd]
    rfl
  have hfirst : firstLine (line ++ c :: rest) = line := by
    rw [firstLine, List.takeWhile_append_of_pos hkeep,
      List.takeWhile_cons_of_neg (by rw [hend]; decide), List.append_nil]
  have hfrom : fromEnd (line ++ c :: rest) = c :: rest := by
    rw [fromEnd, List.dropWhile_append_of_pos hkeep,
      List.dropWhile_cons_of_neg (by rw [hend]; decide)]
  rw [lines_eq (List.append_ne_nil_of_right_ne_nil line (List.cons_ne_nil c rest)), hfirst, hfrom]

/-- **A text is cut** in one way, which is that of the model. -/
theorem cutInto_iff {text : List Char} {cut : List (List Char)} :
    CutInto text cut ↔ cut = lines text := by
  constructor
  · intro h
    induction h with
    | none => rfl
    | last hne hplain => exact (lines_eq_singleton hplain hne).symm
    | @single line rest c later hplain hend hpair _ ih =>
        have hrest : afterEnd (c :: rest) = rest := by
          refine afterEnd.eq_3 c rest fun later hc hlater => hpair hc ?_
          rw [hlater]
          rfl
        rw [lines_append_cons hplain hend, hrest, ih]
    | pair hplain _ ih =>
        rw [lines_append_cons hplain rfl, afterEnd, ih]
  · rintro rfl
    exact cutInto_lines text

/-! ## Trimming -/

/-- The text is the core with white space around it, and the core has none at its
    ends. -/
def TrimsTo (text core : List Char) : Prop :=
  ∃ lead trail, text = lead ++ (core ++ trail) ∧
    (∀ c ∈ lead, isBlank c = true) ∧ (∀ c ∈ trail, isBlank c = true) ∧
    (∀ c ∈ core.head?, isBlank c = false) ∧ ∀ c ∈ core.getLast?, isBlank c = false

/-- The trimmed text of the model is trimmed as it should be. -/
theorem trimsTo_strip (text : List Char) : TrimsTo text (strip text) := by
  have hstart : ∀ {l : List Char}, ∀ c ∈ (l.dropWhile isBlank).head?, isBlank c = false := by
    intro l c hc
    have hhead := List.head?_dropWhile_not isBlank l
    rw [show (l.dropWhile isBlank).head? = some c from hc] at hhead
    exact hhead
  obtain ⟨trail, htrail, hcut⟩ := exists_strip_append text
  refine ⟨text.takeWhile isBlank, trail, ?_, fun c hc => List.mem_takeWhile_imp hc, htrail,
    fun c hc => ?_, fun c hc => ?_⟩
  · rw [← hcut, List.takeWhile_append_dropWhile]
  · -- the core starts as the text does behind the white space in front
    have hne : strip text ≠ [] := List.ne_nil_of_mem (List.mem_of_head? hc)
    refine hstart (l := text) c ?_
    rw [hcut, List.head?_append_of_ne_nil _ hne]
    exact hc
  · rw [strip, dropEndWhile, List.getLast?_reverse] at hc
    exact hstart c hc

/-- **A text is trimmed** in one way, which is that of the model. -/
theorem trimsTo_iff {text core : List Char} : TrimsTo text core ↔ core = strip text := by
  constructor
  · rintro ⟨lead, trail, rfl, hlead, htrail, hhead, hlast⟩
    exact (strip_append hlead htrail hhead hlast).symm
  · rintro rfl
    exact trimsTo_strip text

end Text

namespace SymbolListing

open EntryPoint (mark collectiveMark)
open Glue (unlines)

/-! ## Names -/

/-- The line gives the name: trimmed, it is the name behind an underscore, or the
    name where that does not start with one. -/
def Gives (line name : List Char) : Prop :=
  Text.TrimsTo line ('_' :: name) ∨ (Text.TrimsTo line name ∧ name.head? ≠ some '_')

/-- **A line gives one name**, which is that of the model. -/
theorem gives_iff {line name : List Char} : Gives line name ↔ name = nameOfLine line := by
  rw [Gives, Text.trimsTo_iff, Text.trimsTo_iff]
  unfold nameOfLine
  split
  · rename_i rest heq
    rw [heq]
    constructor
    · rintro (hscore | ⟨rfl, hplain⟩)
      · exact (List.cons.inj hscore).2
      · exact absurd rfl hplain
    · exact fun hname => .inl (congrArg _ hname)
  · rename_i hplain
    constructor
    · rintro (hscore | ⟨hname, -⟩)
      · exact absurd hscore.symm (hplain name)
      · exact hname
    · rintro rfl
      refine .inr ⟨rfl, fun hhead => ?_⟩
      obtain ⟨rest, hrest⟩ := List.head?_eq_some_iff.mp hhead
      exact hplain rest hrest

/-- The names are found in the listing: its lines give them, with the mark of entry
    points in front and without the collective one. -/
def Finds (listing : List Char) (names : List (List Char)) : Prop :=
  ∃ lines given, Text.CutInto listing lines ∧ List.Forall₂ Gives lines given ∧
    names = given.filter fun name => mark.toList <+: name ∧ ¬ collectiveMark.toList <:+: name

/-- **The names found** in a listing are those of the model. -/
theorem finds_iff {listing : List Char} {names : List (List Char)} :
    Finds listing names ↔ names = candidateLines listing := by
  -- line by line, the names are given exactly
  have hgiven : ∀ lines given : List (List Char),
      List.Forall₂ Gives lines given ↔ given = lines.map nameOfLine := by
    intro lines
    induction lines with
    | nil => exact fun given => List.forall₂_nil_left_iff
    | cons line later ih =>
        intro given
        rw [List.forall₂_cons_left_iff]
        constructor
        · rintro ⟨name, rest, hname, hrest, rfl⟩
          rw [List.map_cons, gives_iff.mp hname, (ih rest).mp hrest]
        · rintro rfl
          exact ⟨_, _, gives_iff.mpr rfl, (ih _).mpr rfl, rfl⟩
  have hkept : (fun name => decide (mark.toList <+: name ∧ ¬ collectiveMark.toList <:+: name))
      = isCandidate := by
    funext name
    rw [Bool.eq_iff_iff, decide_eq_true_iff, isCandidate_iff]
  constructor
  · rintro ⟨lines, given, hlines, hforall, rfl⟩
    rw [hkept, (hgiven lines given).mp hforall, Text.cutInto_iff.mp hlines]
    rfl
  · rintro rfl
    refine ⟨_, _, Text.cutInto_lines listing, (hgiven _ _).mpr rfl, ?_⟩
    rw [hkept]
    rfl

/-! ## What the names come to -/

/-- What reading an entry point comes to when these names are found. -/
structure ComesTo (names : List (List Char)) (source : Option Path) (w : World)
    (outcome : Except Failure (Option EntryPoint) × World) : Prop where
  none_iff : outcome.1 = .ok none ↔ names = []
  some_iff : ∀ e : EntryPoint, outcome.1 = .ok (some e) ↔ names.head? = some e.symbol.toList
  error_iff : ∀ failure : Failure, outcome.1 = .error failure ↔
    ∃ first, names.head? = some first ∧ EntryPoint.isIdentifier first = false ∧
      failure = .problem (.invalidEntryPoint (String.ofList first))
  warned : ∀ first, names.head? = some first → 2 ≤ names.toFinset.card →
    outcome.2 = { w with notices := w.notices ++
      [.severalEntryPoints source names.toFinset.card (String.ofList first)] }
  unwarned : names.toFinset.card < 2 → outcome.2 = w

/-- The symbol of an entry point is read as that entry point. -/
theorem answer_symbol (e : EntryPoint) : answer (some e.symbol) = .ok (some e) := by
  rw [answer, EntryPoint.ofSymbol, dif_pos e.valid]
  rfl

/-- A name that is no identifier is refused. -/
theorem answer_of_not_isIdentifier {first : List Char}
    (h : EntryPoint.isIdentifier first = false) : answer (some (String.ofList first))
      = .error (.problem (.invalidEntryPoint (String.ofList first))) := by
  rw [answer, EntryPoint.ofSymbol, dif_neg (by rw [String.toList_ofList, h]; decide)]
  rfl

/-- The entry point that comes out has the first name. -/
theorem answer_eq_some_iff (first : Option (List Char)) (e : EntryPoint) :
    answer (first.map String.ofList) = .ok (some e) ↔ first = some e.symbol.toList := by
  rw [← answer_symbol]
  constructor
  · intro h
    obtain ⟨name, rfl, hname⟩ := Option.map_eq_some_iff.mp (answer_injective h)
    rw [← hname, String.toList_ofList]
  · rintro rfl
    rw [Option.map_some, String.ofList_toList]

/-- What is complained about is a first name that is no identifier. -/
theorem answer_eq_error_iff (first : Option (List Char)) (failure : Failure) :
    answer (first.map String.ofList) = .error failure ↔
      ∃ name, first = some name ∧ EntryPoint.isIdentifier name = false ∧
        failure = .problem (.invalidEntryPoint (String.ofList name)) := by
  constructor
  · intro h
    cases first with
    | none => exact nomatch h
    | some name =>
        cases hvalid : EntryPoint.isIdentifier name with
        | true =>
            -- a name that is an identifier comes to its entry point
            have hvalid' : EntryPoint.isIdentifier (String.ofList name).toList = true := by
              rw [String.toList_ofList]
              exact hvalid
            exact nomatch (answer_symbol ⟨_, hvalid'⟩).symm.trans h
        | false =>
            refine ⟨name, rfl, hvalid, ?_⟩
            exact (Except.error.inj ((answer_of_not_isIdentifier hvalid).symm.trans h)).symm
  · rintro ⟨name, rfl, hinvalid, rfl⟩
    exact answer_of_not_isIdentifier hinvalid

/-- **What a listing comes to** is decided by the names that are found in it. -/
theorem comesTo_of_finds {listing : String} {names : List (List Char)}
    (h : Finds listing.toList names) (source : Option Path) (w : World) :
    ComesTo names source w ((entryPoint? listing source).run w) := by
  have hnames := finds_iff.mp h
  have hhead : (candidates listing).head? = names.head?.map String.ofList := by
    rw [candidates, ← hnames, List.head?_map, head?_distinct]
  have hlength : (candidates listing).length = names.toFinset.card := by
    rw [candidates, ← hnames, List.length_map, length_distinct]
  rw [run_entryPoint?_eq, hhead, hlength]
  refine ⟨?_, answer_eq_some_iff _, answer_eq_error_iff _, fun first hfirst hseveral => ?_,
    fun hfew => ?_⟩
  · rw [← List.head?_eq_none_iff, ← Option.map_eq_none_iff (f := String.ofList)]
    exact ⟨fun hanswer => answer_injective hanswer, fun hnone => by rw [hnone]; rfl⟩
  · rw [hfirst, Option.map_some, warnings, if_pos hseveral]
  · have hnone : warnings source (names.head?.map String.ofList) names.toFinset.card = [] := by
      cases names.head? with
      | none => rfl
      | some first => exact if_neg (Nat.not_le_of_lt hfew)
    rw [hnone, List.append_nil]

/-! ## Lines that are added -/

/-- **Lines that have been there** may be added, and empty ones, behind the others. -/
theorem run_entryPoint?_again {listing text : String} {lines more : List (List Char)}
    (hlines : Text.CutInto listing.toList lines) (hmore : ∀ line ∈ more, line = [] ∨ line ∈ lines)
    (htext : Text.CutInto text.toList (lines ++ more)) (source : Option Path) (w : World) :
    (entryPoint? text source).run w = (entryPoint? listing source).run w := by
  have hfew : candidateLines listing.toList = (lines.map nameOfLine).filter isCandidate := by
    rw [candidateLines, ← Text.cutInto_iff.mp hlines]
  have hmany : candidateLines text.toList
      = candidateLines listing.toList ++ (more.map nameOfLine).filter isCandidate := by
    rw [hfew, candidateLines, ← Text.cutInto_iff.mp htext, List.map_append, List.filter_append]
  have hsubset : (more.map nameOfLine).filter isCandidate ⊆ candidateLines listing.toList := by
    intro name hname
    obtain ⟨hgiven, hlooks⟩ := List.mem_filter.mp hname
    obtain ⟨line, hline, rfl⟩ := List.mem_map.mp hgiven
    rcases hmore line hline with rfl | hold
    · exact absurd hlooks (by decide)
    · rw [hfew]
      exact List.mem_filter.mpr ⟨List.mem_map_of_mem hold, hlooks⟩
  rw [run_entryPoint?_eq_iff, candidates, candidates, List.head?_map, List.head?_map,
    List.length_map, List.length_map, head?_distinct, head?_distinct, hmany]
  refine ⟨?_, ?_⟩
  · -- the first name is an old one, as there is none at all without it
    cases hold : candidateLines listing.toList with
    | nil =>
        rw [hold] at hsubset
        rw [List.eq_nil_of_subset_nil hsubset, List.append_nil]
    | cons first later => rfl
  · refine ((length_distinct_eq_iff ?_).mpr ?_).symm
    · exact List.subset_append_left _ _
    · exact List.append_subset.mpr ⟨List.Subset.refl _, hsubset⟩

/-- Lines that are joined are cut again. -/
theorem lines_unlines {again : List String}
    (h : ∀ line ∈ again, ∀ c ∈ line.toList, Text.isLineEnd c = false) :
    Text.lines (unlines again).toList = again.map String.toList := by
  induction again with
  | nil => rfl
  | cons line later ih =>
      obtain ⟨hline, hlater⟩ := List.forall_mem_cons.mp h
      rw [toList_unlines_cons, Text.lines_append_cons hline rfl, List.map_cons, ← ih hlater]
      rfl

/-- **What a listing comes to.**  There is one way to cut a listing into lines and one
    list of names to find in it.  There is no entry point just when there is no name;
    otherwise the first name is that of the entry point, or is complained about just
    when it is no identifier.  A warning is given, and only one, just when there are
    several different names, and it says how many.  Neither changes when lines that
    have been there are added again behind the others. -/
theorem entryPoint?_of_found (listing : String) (source : Option Path) (w : World) :
    ∃ lines names : List (List Char),
      (∀ cut, Text.CutInto listing.toList cut ↔ cut = lines) ∧
      (∀ found, Finds listing.toList found ↔ found = names) ∧
      ComesTo names source w ((entryPoint? listing source).run w) ∧
      (∀ (text : String) (more : List (List Char)),
        (∀ line ∈ more, line = [] ∨ line ∈ lines) → Text.CutInto text.toList (lines ++ more) →
        (entryPoint? text source).run w = (entryPoint? listing source).run w) ∧
      ∀ again : List String, (∀ line ∈ again, line.toList ∈ lines) →
        (entryPoint? (listing ++ "\n" ++ unlines again) source).run w
          = (entryPoint? listing source).run w := by
  have hlines := Text.cutInto_lines listing.toList
  refine ⟨Text.lines listing.toList, candidateLines listing.toList, fun _ => Text.cutInto_iff,
    fun _ => finds_iff, comesTo_of_finds (finds_iff.mpr rfl) source w,
    fun text more hmore htext => run_entryPoint?_again hlines hmore htext source w,
    fun again hagain => ?_⟩
  have hplain : ∀ line ∈ again, ∀ c ∈ line.toList, Text.isLineEnd c = false := fun line hline =>
    (Text.isLine_of_mem_lines (hagain line hline)).plain
  -- the lines that are added stand behind those of the listing, or behind an empty one
  obtain ⟨gap, hgap, hcut⟩ :=
    Text.lines_append_lineFeed listing.toList (unlines again).toList
  rw [lines_unlines hplain] at hcut
  have hmore : ∀ line ∈ gap ++ again.map String.toList,
      line = [] ∨ line ∈ Text.lines listing.toList := by
    refine List.forall_mem_append.mpr ⟨fun line hline => .inl (hgap line hline), ?_⟩
    intro line hline
    obtain ⟨line', hline', rfl⟩ := List.mem_map.mp hline
    exact .inr (hagain line' hline')
  refine run_entryPoint?_again hlines hmore ?_ source w
  rw [Text.cutInto_iff, ← hcut, String.toList_append, String.toList_append, List.append_assoc]
  rfl

/-- A listing with two names, line ends of several kinds and white space. -/
def twoNames : String := "_main\r\n\t__MREP_A\x0b MREP_B\u2028_MREP_ALL_B\x85_MREP_C \r_MREP_B"

theorem entryPoint?_of_found_twoNames :
    (∀ line ∈ ["_MREP_C ", "_main", "_MREP_C "], line.toList ∈ Text.lines twoNames.toList) ∧
      ComesTo ["MREP_B".toList, "MREP_C".toList, "MREP_B".toList] none bareWorld
        ((entryPoint? twoNames none).run bareWorld) ∧
      (entryPoint? (twoNames ++ "\n" ++ unlines ["_MREP_C ", "_main", "_MREP_C "]) none).run
        bareWorld = (entryPoint? twoNames none).run bareWorld := by
  obtain ⟨lines, names, hlines, hnames, hcomes, -, hagain⟩ :=
    entryPoint?_of_found twoNames none bareWorld
  have hthere : ∀ line ∈ ["_MREP_C ", "_main", "_MREP_C "],
      line.toList ∈ Text.lines twoNames.toList := by
    decide
  have hfound : ["MREP_B".toList, "MREP_C".toList, "MREP_B".toList] = names := by
    rw [← hnames, finds_iff]
    decide
  rw [← (hlines _).mp (Text.cutInto_lines _)] at hagain
  rw [hfound]
  exact ⟨hthere, hcomes, hagain _ hthere⟩

end SymbolListing

end AheadOfTime
