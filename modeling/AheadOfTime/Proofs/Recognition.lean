import AheadOfTime.Proofs.Fresh
import AheadOfTime.Proofs.Law
import Mathlib.Data.Bool.AllAny
import Mathlib.Data.List.TakeWhile

/-! # Finding an entry point again

    The symbol of an entry point goes into an object, and comes back in a listing of
    the object's symbols: on a line among others, perhaps behind an underscore and
    with white space around it, and once for every architecture.
    `generate_recognized` says that an entry point which was drawn is read off such a
    listing again.

    What stands on a line of a text is said without cutting the text
    (`Text.IsLine`), and `Text.IsLine.mem_lines` and `Text.isLine_of_mem_lines` say
    that cutting gives these lines.  That the collective mark never hides a drawn
    symbol is a matter of letters: there is an `L` in it, and none in a numeral. -/

namespace AheadOfTime

/-! ## Lines -/

namespace Text

/-- Where the line stands in the text, line ends are around it, or the ends of the
    text, and there is none in it. -/
structure IsLine (text line : List Char) : Prop where
  plain : ∀ c ∈ line, isLineEnd c = false
  stands : ∃ before after, text = before ++ (line ++ after) ∧
    (∀ c ∈ before.getLast?, isLineEnd c = true) ∧ ∀ c ∈ after.head?, isLineEnd c = true

/-- What comes behind the line end that a text starts with. -/
def afterEnd : List Char → List Char
  | [] => []
  | '\r' :: '\n' :: rest => rest
  | _ :: rest => rest

/-- The characters before the first line end. -/
abbrev firstLine (text : List Char) : List Char := text.takeWhile fun c => !isLineEnd c

/-- The text from its first line end on. -/
abbrev fromEnd (text : List Char) : List Char := text.dropWhile fun c => !isLineEnd c

/-- A text is cut at its first line end, and then behind that. -/
theorem lines_eq {text : List Char} (h : text ≠ []) :
    lines text = firstLine text :: lines (afterEnd (fromEnd text)) := by
  fun_induction lines text with
  | case1 => exact absurd rfl h
  | case2 rest ih => rfl
  | case3 c rest hpair hend ih =>
      have hrest : afterEnd (c :: rest) = rest := afterEnd.eq_3 c rest hpair
      simp [firstLine, fromEnd, hend, hrest]
  | case4 c rest hpair hend ih =>
      rw [Bool.not_eq_true] at hend
      cases rest with
      | nil => simp [firstLine, fromEnd, hend, lines, consLine, afterEnd]
      | cons d rest =>
          rw [ih (List.cons_ne_nil d rest)]
          simp [firstLine, fromEnd, hend, consLine]

/-- **One line end** is dropped from the front. -/
theorem exists_end_append {text : List Char} (h : text ≠ [])
    (hend : ∀ c ∈ text.head?, isLineEnd c = true) :
    ∃ ending, text = ending ++ afterEnd text ∧ (∀ c ∈ ending.getLast?, isLineEnd c = true) ∧
      ending ≠ [] := by
  fun_cases afterEnd text with
  | case1 => exact absurd rfl h
  | case2 rest =>
      refine ⟨['\r', '\n'], rfl, fun c hc => ?_, List.cons_ne_nil _ _⟩
      rw [← Option.some.inj hc]
      rfl
  | case3 c rest hpair => exact ⟨[c], rfl, hend, List.cons_ne_nil c _⟩

/-- What does not start with a line feed is no part of the line end before it. -/
theorem afterEnd_append {text : List Char} (h : text ≠ []) {more : List Char}
    (hmore : more.head? ≠ some '\n') : afterEnd (text ++ more) = afterEnd text ++ more := by
  fun_cases afterEnd text with
  | case1 => exact absurd rfl h
  | case2 rest => rfl
  | case3 c rest hpair =>
      refine afterEnd.eq_3 c (rest ++ more) fun later hc hlater => ?_
      cases rest with
      | nil => exact hmore (by rw [show more = _ from hlater]; rfl)
      | cons d rest =>
          exact hpair rest hc (by rw [(List.cons.inj hlater).1])

theorem afterEnd_suffix (text : List Char) : afterEnd text <:+ text := by
  fun_cases afterEnd text with
  | case1 => exact List.suffix_rfl
  | case2 rest => exact ⟨['\r', '\n'], rfl⟩
  | case3 c rest hpair => exact List.suffix_cons c rest

/-- What stands behind a line end stands behind a longer text that ends with it. -/
private theorem getLast?_append_isLineEnd {before ending : List Char}
    (hending : ∀ c ∈ ending.getLast?, isLineEnd c = true)
    (hbefore : ∀ c ∈ before.getLast?, isLineEnd c = true) :
    ∀ c ∈ (ending ++ before).getLast?, isLineEnd c = true := by
  cases before with
  | nil =>
      rw [List.append_nil]
      exact hending
  | cons d before =>
      rw [List.getLast?_append_of_ne_nil _ (List.cons_ne_nil d before)]
      exact hbefore

private theorem head?_fromEnd (text : List Char) :
    ∀ c ∈ (fromEnd text).head?, isLineEnd c = true := by
  intro c hc
  have hhead := List.head?_dropWhile_not (fun c => !isLineEnd c) text
  rw [show (text.dropWhile fun c => !isLineEnd c).head? = some c from hc] at hhead
  simpa using hhead

theorem length_afterEnd_lt {text : List Char} (h : text ≠ []) :
    (afterEnd (fromEnd text)).length < text.length := by
  have hdrop : (fromEnd text).length ≤ text.length := (List.dropWhile_suffix _).length_le
  by_cases hfrom : fromEnd text = []
  · rw [hfrom]
    exact List.length_pos_iff.mpr h
  · obtain ⟨ending, hending, -, hne⟩ := exists_end_append hfrom (head?_fromEnd text)
    have hlength := congrArg List.length hending
    have hpos := List.length_pos_iff.mpr hne
    rw [List.length_append] at hlength
    omega

/-- **What is cut off** are lines of the text. -/
theorem isLine_of_mem_lines {text line : List Char} (h : line ∈ lines text) :
    IsLine text line := by
  by_cases hempty : text = []
  · rw [hempty] at h
    exact nomatch h
  · rw [lines_eq hempty] at h
    have hsplit : firstLine text ++ fromEnd text = text := List.takeWhile_append_dropWhile
    rcases List.mem_cons.mp h with rfl | hlater
    · refine ⟨fun c hc => ?_, [], fromEnd text, hsplit.symm, nofun, head?_fromEnd text⟩
      simpa using List.mem_takeWhile_imp hc
    · -- a later line is one of what is behind the end of the first
      have hsmaller := length_afterEnd_lt hempty
      obtain ⟨hplain, before, after, htext, hbefore, hafter⟩ := isLine_of_mem_lines hlater
      have hfrom : fromEnd text ≠ [] := by
        intro hnil
        rw [hnil] at hlater
        exact nomatch hlater
      obtain ⟨ending, hending, hlast, hne⟩ := exists_end_append hfrom (head?_fromEnd text)
      refine ⟨hplain, firstLine text ++ (ending ++ before), after, ?_, ?_, hafter⟩
      · rw [List.append_assoc, List.append_assoc, ← htext, ← hending, hsplit]
      · rw [List.getLast?_append_of_ne_nil _ (List.append_ne_nil_of_left_ne_nil hne before)]
        exact getLast?_append_isLineEnd hlast hbefore
termination_by text.length

/-- **Every line is cut off**, unless it is empty. -/
theorem IsLine.mem_lines {text line : List Char} (h : IsLine text line) (hne : line ≠ []) :
    line ∈ lines text := by
  obtain ⟨hplain, before, after, htext, hbefore, hafter⟩ := h
  have hplain' : ∀ c ∈ line, (!isLineEnd c) = true := by
    intro c hc
    rw [hplain c hc]
    rfl
  have hempty : text ≠ [] := by
    rw [htext]
    exact List.append_ne_nil_of_right_ne_nil _ (List.append_ne_nil_of_left_ne_nil hne _)
  rw [lines_eq hempty]
  rcases hfirst : fromEnd before with _ | ⟨d, rest⟩
  · -- no line end stands before the line, so nothing does
    have hnil : before = [] := by
      refine List.getLast?_eq_none_iff.mp (Option.eq_none_iff_forall_not_mem.mpr fun c hc => ?_)
      have := List.dropWhile_eq_nil_iff.mp hfirst c (List.mem_of_getLast? hc)
      rw [hbefore c hc] at this
      exact nomatch this
    refine List.mem_cons.mpr (.inl ?_)
    rw [htext, hnil, List.nil_append, firstLine, List.takeWhile_append_of_pos hplain']
    cases after with
    | nil => exact (List.append_nil line).symm
    | cons c after =>
        rw [List.takeWhile_cons_of_neg (by rw [hafter c rfl]; decide), List.append_nil]
  · -- the line is one of those behind the first line end
    have hfrom : fromEnd text = fromEnd before ++ (line ++ after) := by
      rw [htext, fromEnd, List.dropWhile_append, if_neg]
      rw [show before.dropWhile _ = d :: rest from hfirst]
      exact Bool.false_ne_true
    have hbreak : fromEnd before ≠ [] := hfirst ▸ List.cons_ne_nil d rest
    have hhead : (line ++ after).head? ≠ some '\n' := by
      rw [List.head?_append_of_ne_nil _ hne]
      exact fun heq => absurd (hplain '\n' (List.mem_of_head? heq)) (by decide)
    have hlater : afterEnd (fromEnd text) = afterEnd (fromEnd before) ++ (line ++ after) := by
      rw [hfrom, afterEnd_append hbreak hhead]
    have hsmaller := length_afterEnd_lt hempty
    refine List.mem_cons_of_mem _ (IsLine.mem_lines ⟨hplain, _, after, hlater, ?_, hafter⟩ hne)
    obtain ⟨skipped, hskipped⟩ :=
      (afterEnd_suffix _).trans (List.dropWhile_suffix (fun c => !isLineEnd c) (l := before))
    intro c hc
    refine hbefore c ?_
    rw [← hskipped, List.getLast?_append_of_ne_nil _ (List.ne_nil_of_mem (List.mem_of_getLast? hc))]
    exact hc
termination_by text.length

/-! ## White space -/

/-- **White space is removed** from around what has none at its ends. -/
theorem strip_append {lead core trail : List Char} (hlead : ∀ c ∈ lead, isBlank c = true)
    (htrail : ∀ c ∈ trail, isBlank c = true) (hhead : ∀ c ∈ core.head?, isBlank c = false)
    (hlast : ∀ c ∈ core.getLast?, isBlank c = false) :
    strip (lead ++ (core ++ trail)) = core := by
  have hdrop : ∀ {l : List Char}, (∀ c ∈ l.head?, isBlank c = false) →
      l.dropWhile isBlank = l := by
    intro l hl
    cases l with
    | nil => rfl
    | cons c l => exact List.dropWhile_cons_of_neg (by rw [hl c rfl]; decide)
  unfold strip
  rw [List.dropWhile_append_of_pos hlead]
  unfold dropEndWhile
  by_cases hempty : core = []
  · rw [hempty, List.nil_append, List.dropWhile_eq_nil_iff.mpr htrail]
    rfl
  · -- what is in front of the core has gone, and the core stops the rest
    have hkept : (core ++ trail).dropWhile isBlank = core ++ trail := by
      refine hdrop ?_
      rw [List.head?_append_of_ne_nil _ hempty]
      exact hhead
    rw [hkept, List.reverse_append,
      List.dropWhile_append_of_pos fun c hc => htrail c (List.mem_reverse.mp hc),
      hdrop (by rw [List.head?_reverse]; exact hlast), List.reverse_reverse]

/-! ## Digits -/

/-- The digits of hexadecimal numerals in upper case. -/
def upperHexDigits : List Char := "0123456789ABCDEF".toList

/-- Digits are capitalized to digits. -/
theorem mem_upperHexDigits_of_mem_upperCase {text : String}
    (h : ∀ c ∈ text.toList, c ∈ lowerHexDigits) :
    ∀ c ∈ (upperCase text).toList, c ∈ upperHexDigits := by
  have hdigits : ∀ c ∈ lowerHexDigits, c.toUpper ∈ upperHexDigits :=
    List.all_iff_forall_prop.mp (by decide)
  intro d hd
  rw [toList_upperCase h] at hd
  obtain ⟨c, hc, rfl⟩ := List.mem_map.mp hd
  exact hdigits c (h c hc)

end Text

/-! ## Names on lines -/

namespace SymbolListing

/-- The line shows the name: there may be an underscore in front of it, and white
    space around. -/
def Shows (name line : List Char) : Prop :=
  ∃ lead score trail, (∀ c ∈ lead, Text.isBlank c = true) ∧
    (∀ c ∈ trail, Text.isBlank c = true) ∧ (score = [] ∨ score = ['_']) ∧
    line = lead ++ (score ++ name ++ trail)

/-- **The name is read off a line that shows it**, if it starts with a letter. -/
theorem nameOfLine_of_shows {name line : List Char} (h : Shows name line)
    (hplain : ∀ c ∈ name, Text.isBlank c = false) (hhead : name.head? ≠ some '_') :
    nameOfLine line = name := by
  obtain ⟨lead, score, trail, hlead, htrail, hscore, rfl⟩ := h
  -- neither the underscore nor the name is white space
  have hcore : ∀ c ∈ score ++ name, Text.isBlank c = false := by
    refine List.forall_mem_append.mpr ⟨?_, hplain⟩
    rcases hscore with rfl | rfl
    · exact List.forall_mem_nil _
    · exact List.forall_mem_singleton.mpr (by decide)
  unfold nameOfLine
  rw [Text.strip_append hlead htrail (fun c hc => hcore c (List.mem_of_head? hc))
    fun c hc => hcore c (List.mem_of_getLast? hc)]
  rcases hscore with rfl | rfl
  · rw [List.nil_append]
    split
    · rename_i rest
      exact absurd rfl hhead
    · rfl
  · rfl

theorem occursIn_iff_infix (needle text : List Char) :
    occursIn needle text = true ↔ needle <:+: text := by
  induction text with
  | nil => rw [occursIn, List.isEmpty_iff, List.infix_nil]
  | cons c text ih =>
      rw [occursIn, Bool.or_eq_true, List.isPrefixOf_iff_prefix, ih, List.infix_cons_iff]

theorem isCandidate_iff (name : List Char) :
    isCandidate name = true ↔
      EntryPoint.mark.toList <+: name ∧ ¬ EntryPoint.collectiveMark.toList <:+: name := by
  rw [isCandidate, Bool.and_eq_true, List.isPrefixOf_iff_prefix, Bool.not_eq_true',
    ← Bool.not_eq_true, occursIn_iff_infix]

/-- **One name is found** where a line gives it, and no line another one. -/
theorem candidates_eq_singleton {listing : String} {name : List Char}
    (hcandidate : isCandidate name = true)
    (hgiven : ∃ line ∈ Text.lines listing.toList, nameOfLine line = name)
    (hothers : ∀ line ∈ Text.lines listing.toList, isCandidate (nameOfLine line) = true →
      nameOfLine line = name) :
    candidates listing = [String.ofList name] := by
  unfold candidates
  rw [distinct_eq_singleton (a := name), List.map_singleton]
  · obtain ⟨line, hline, hname⟩ := hgiven
    refine List.ne_nil_of_mem (a := name) (List.mem_filter.mpr ⟨?_, hcandidate⟩)
    exact List.mem_map.mpr ⟨line, hline, hname⟩
  · intro other hother
    obtain ⟨hmem, hlooks⟩ := List.mem_filter.mp hother
    obtain ⟨line, hline, rfl⟩ := List.mem_map.mp hmem
    exact hothers line hline hlooks

end SymbolListing

/-! ## Drawn names -/

namespace Draws

/-- What is drawn is listed, or a count. -/
theorem draw_mem_or_counted (d : Draws) (i : Nat) :
    d.draw i ∈ d.listed ∨ ∃ n, d.draw i = counted n := by
  unfold draw
  rw [List.getD_eq_getElem?_getD]
  rcases hlisted : d.listed[i]? with _ | text
  · exact .inr ⟨_, rfl⟩
  · exact .inl (List.mem_of_getElem? hlisted)

/-- A new name is made from a listed text, or from a count. -/
theorem exists_text_of_next (d : Draws) :
    ∃ text, d.next.1 = symbol text ∧ (text ∈ d.listed ∨ ∃ n, text = counted n) := by
  obtain ⟨passed, -, -, hnext⟩ := d.next_eq
  exact ⟨d.draw passed, congrArg Prod.fst hnext, d.draw_mem_or_counted passed⟩

section

variable {text : String} (h : ∀ c ∈ text.toList, c ∈ Text.lowerHexDigits)

include h

/-- Names are letters, underscores and digits, as the mark and the numerals are. -/
theorem forall_mem_symbol {p : Char → Prop} (hmark : ∀ c ∈ EntryPoint.mark.toList, p c)
    (hdigits : ∀ c ∈ Text.upperHexDigits, p c) : ∀ c ∈ (symbol text).toList, p c := by
  unfold symbol
  rw [String.toList_append]
  exact List.forall_mem_append.mpr
    ⟨hmark, fun c hc => hdigits c (Text.mem_upperHexDigits_of_mem_upperCase h c hc)⟩

theorem isIdentifier_symbol : EntryPoint.isIdentifier (symbol text).toList = true := by
  have hall := forall_mem_symbol h (p := fun c => EntryPoint.isIdentifierPart c = true)
    (List.all_iff_forall_prop.mp (by decide)) (List.all_iff_forall_prop.mp (by decide))
  have hcons : (symbol text).toList = 'M' :: (symbol text).toList.tail := by
    unfold symbol
    rw [String.toList_append]
    rfl
  rw [hcons] at hall ⊢
  rw [EntryPoint.isIdentifier, List.all_eq_true.mpr (List.forall_mem_cons.mp hall).2]
  decide

/-- **A drawn name is never hidden**: the collective mark has an `L` in it. -/
theorem isCandidate_symbol : SymbolListing.isCandidate (symbol text).toList = true := by
  refine (SymbolListing.isCandidate_iff _).mpr ⟨?_, fun hin => ?_⟩
  · unfold symbol
    rw [String.toList_append]
    exact List.prefix_append _ _
  · exact forall_mem_symbol h (p := (· ≠ 'L')) (List.all_iff_forall_prop.mp (by decide))
      (List.all_iff_forall_prop.mp (by decide)) 'L' (hin.subset (by decide)) rfl

end

end Draws

namespace EntryPoint

/-- **An entry point is found again** in every listing with a line that shows its
    name, if no other line gives a name with the mark of entry points and without the
    collective one.  Nothing is warned of.  The texts that are drawn are numerals. -/
theorem generate_recognized (w : World)
    (hdraws : ∀ text ∈ w.draws.listed, ∀ c ∈ text.toList, c ∈ Text.lowerHexDigits) :
    ∃ e v, generate.run w = (.ok e, v) ∧
      ∀ (listing : String) (source : Option Path) (u : World),
        (∃ line, Text.IsLine listing.toList line ∧
          SymbolListing.Shows e.symbol.toList line) →
        (∀ line, Text.IsLine listing.toList line → SymbolListing.Shows e.symbol.toList line ∨
          (mark.toList <+: SymbolListing.nameOfLine line →
            collectiveMark.toList <:+: SymbolListing.nameOfLine line)) →
        (SymbolListing.entryPoint? listing source).run u = (.ok (some e), u) := by
  obtain ⟨text, hname, htext⟩ := w.draws.exists_text_of_next
  have hdigits : ∀ c ∈ text.toList, c ∈ Text.lowerHexDigits := by
    rcases htext with hlisted | ⟨n, rfl⟩
    · exact hdraws text hlisted
    · exact Text.mem_lowerHexDigits_of_mem_hex 32 n
  have hvalid := Draws.isIdentifier_symbol hdigits
  have hofSymbol : ofSymbol (Draws.symbol text) = .ok ⟨Draws.symbol text, hvalid⟩ := dif_pos hvalid
  refine ⟨⟨Draws.symbol text, hvalid⟩, { w with draws := w.draws.next.2 }, ?_,
    fun listing source u hshown hothers => ?_⟩
  · rw [run_generate, hname, hofSymbol]
    rfl
  · have hread : ∀ line, SymbolListing.Shows (Draws.symbol text).toList line →
        SymbolListing.nameOfLine line = (Draws.symbol text).toList := fun line hshows =>
      SymbolListing.nameOfLine_of_shows hshows
        (Draws.forall_mem_symbol hdigits (List.all_iff_forall_prop.mp (by decide))
          (List.all_iff_forall_prop.mp (by decide))) (by
          unfold Draws.symbol
          rw [String.toList_append]
          exact fun hhead => absurd (Option.some.inj hhead) (by decide))
    -- the line that shows the name gives it, and no other line gives a candidate
    have hcandidates : SymbolListing.candidates listing = [Draws.symbol text] := by
      rw [SymbolListing.candidates_eq_singleton (Draws.isCandidate_symbol hdigits),
        String.ofList_toList]
      · obtain ⟨line, hline, hshows⟩ := hshown
        refine ⟨line, hline.mem_lines ?_, hread line hshows⟩
        obtain ⟨lead, score, trail, -, -, -, rfl⟩ := hshows
        unfold Draws.symbol
        rw [String.toList_append]
        simp [mark]
      · intro line hline hlooks
        rcases hothers line (Text.isLine_of_mem_lines hline) with hshows | hhidden
        · exact hread line hshows
        · obtain ⟨hmark, hnot⟩ := (SymbolListing.isCandidate_iff _).mp hlooks
          exact absurd (hhidden hmark) hnot
    unfold SymbolListing.entryPoint?
    rw [hcandidates]
    dsimp only
    rw [hofSymbol]
    rfl

/-- A world with one drawn text. -/
def drawingWorld : World where
  files := ⟨[], []⟩
  draws := { listed := ["00112233445566778899aabbccddeeff"] }

/-- A listing of an object for two architectures, with line ends of several kinds. -/
def fatListing : String :=
  "_main\x0b\t_MREP_00112233445566778899AABBCCDDEEFF \r\n" ++
    "_MREP_ALL_MODULES\u2028MREP_00112233445566778899AABBCCDDEEFF\n"

theorem generate_recognized_fatListing :
    (∀ text ∈ drawingWorld.draws.listed, ∀ c ∈ text.toList, c ∈ Text.lowerHexDigits) ∧
      ∃ e v, generate.run drawingWorld = (.ok e, v) ∧
        (∃ line, Text.IsLine fatListing.toList line ∧
          SymbolListing.Shows e.symbol.toList line) ∧
        (∀ line, Text.IsLine fatListing.toList line →
          SymbolListing.Shows e.symbol.toList line ∨
            (mark.toList <+: SymbolListing.nameOfLine line →
              collectiveMark.toList <:+: SymbolListing.nameOfLine line)) ∧
        (SymbolListing.entryPoint? fatListing none).run v = (.ok (some e), v) := by
  have hdraws : ∀ text ∈ drawingWorld.draws.listed, ∀ c ∈ text.toList,
      c ∈ Text.lowerHexDigits :=
    List.forall_mem_singleton.mpr (List.all_iff_forall_prop.mp (by decide))
  obtain ⟨e, v, hrun, hread⟩ := generate_recognized drawingWorld hdraws
  have hsymbol : e.symbol = "MREP_00112233445566778899AABBCCDDEEFF" := by
    rw [run_generate] at hrun
    have hnext : drawingWorld.draws.next.1 = "MREP_00112233445566778899AABBCCDDEEFF" := by decide
    rcases hof : ofSymbol drawingWorld.draws.next.1 with p | e'
    · rw [hof] at hrun
      exact nomatch congrArg Prod.fst hrun
    · rw [hof] at hrun
      rw [← Except.ok.inj (congrArg Prod.fst hrun), symbol_eq_of_ofSymbol hof, hnext]
  have hshows : SymbolListing.Shows e.symbol.toList e.symbol.toList :=
    ⟨[], [], [], List.forall_mem_nil _, List.forall_mem_nil _, .inl rfl, by simp⟩
  have hshows' : SymbolListing.Shows e.symbol.toList
      ('\t' :: '_' :: (e.symbol.toList ++ [' '])) :=
    ⟨['\t'], ['_'], [' '], List.forall_mem_singleton.mpr (by decide),
      List.forall_mem_singleton.mpr (by decide), .inr rfl, by simp⟩
  have hlines : Text.lines fatListing.toList = ["_main".toList,
      '\t' :: '_' :: (e.symbol.toList ++ [' ']), "_MREP_ALL_MODULES".toList,
      e.symbol.toList] := by
    rw [hsymbol]
    decide
  have hone : ∃ line, Text.IsLine fatListing.toList line ∧
      SymbolListing.Shows e.symbol.toList line :=
    ⟨_, Text.isLine_of_mem_lines (hlines ▸ List.mem_cons_of_mem _ List.mem_cons_self), hshows'⟩
  have hothers : ∀ line, Text.IsLine fatListing.toList line →
      SymbolListing.Shows e.symbol.toList line ∨
        (mark.toList <+: SymbolListing.nameOfLine line →
          collectiveMark.toList <:+: SymbolListing.nameOfLine line) := by
    intro line hline
    by_cases hempty : line = []
    · rw [hempty]
      exact .inr (by decide)
    · have hmem := hline.mem_lines hempty
      rw [hlines] at hmem
      simp only [List.mem_cons, List.not_mem_nil, or_false] at hmem
      rcases hmem with rfl | rfl | rfl | rfl
      · exact .inr (by decide)
      · exact .inl hshows'
      · exact .inr fun _ => by decide
      · exact .inl hshows
  exact ⟨hdraws, e, v, hrun, hone, hothers, hread fatListing none v hone hothers⟩

end EntryPoint

end AheadOfTime
