import AheadOfTime.Proofs.Recognition
import AheadOfTime.Proofs.Slices

/-! # Entry points from a stream of draws

    What is drawn is a stream of texts, with any repetitions, and the entry points of
    a process are made from it one after the other.  Each call goes on in the stream
    where the last one stopped, and passes over the texts whose names are issued
    (`Draws.next_eq`).

    For a number of calls, this comes to the *values* of the stream: its different
    texts that no name was issued for, in the order of their first occurrences.  The
    step is `Draws.values_next`: a call takes the first value, and what is left are the
    values of the draws behind it, in which the names that are issued now do not count.
    `EntryPoint.generateAll_draws` says what a number of calls answer, and how far each
    of them has drawn.  That different values give different names is
    `Draws.symbol_inj`. -/

namespace AheadOfTime

/-! ## Capitals of hexadecimal digits -/

namespace Text

section

variable {text text' : String} (h : ∀ c ∈ text.toList, c ∈ lowerHexDigits)
  (h' : ∀ c ∈ text'.toList, c ∈ lowerHexDigits)

include h

/-- The capitals of hexadecimal digits are those of Unicode. -/
theorem upperCase_eq_toUpper : upperCase text = text.toUpper := by
  rw [← String.toList_inj, toList_upperCase h]
  exact (String.toList_map).symm

/-- Small letters come back from their capitals. -/
theorem toLower_toUpper : text.toUpper.toLower = text := by
  have hdigit : ∀ c ∈ lowerHexDigits, c.toUpper.toLower = c :=
    List.all_iff_forall_prop.mp (by decide)
  rw [← String.toList_inj]
  show ((text.map Char.toUpper).map Char.toLower).toList = text.toList
  rw [String.toList_map, String.toList_map, List.map_map]
  calc
    text.toList.map (Char.toLower ∘ Char.toUpper) = text.toList.map id :=
      List.map_congr_left fun c hc => hdigit c (h c hc)
    _ = text.toList := List.map_id _

include h'

/-- Capitals tell hexadecimal numerals apart. -/
theorem upperCase_inj (heq : upperCase text = upperCase text') : text = text' := by
  rw [upperCase_eq_toUpper h, upperCase_eq_toUpper h'] at heq
  rw [← toLower_toUpper h, heq, toLower_toUpper h']

end

end Text

/-! ## The values of a stream -/

namespace Draws

/-- The first texts of the stream. -/
def upTo (d : Draws) (count : Nat) : List String := (List.range count).map d.draw

/-- The different texts among the first ones that no name was issued for, in the order
    of their first occurrences. -/
def values (d : Draws) (count : Nat) : List String :=
  distinct ((d.upTo count).filter (symbol · ∉ d.issued))

/-- How many draws it takes to come by so many values: up to the first occurrence of the
    last of them. -/
def spent (d : Draws) (count taken : Nat) : Nat :=
  match ((d.values count).take taken).getLast? with
  | none => 0
  | some text => (d.upTo count).idxOf text + 1

/-- The draws when so many values have been taken: their names are issued, and the stream
    goes on behind the last of them. -/
def after (d : Draws) (count taken : Nat) : Draws :=
  (d.skip (d.spent count taken)).issue (((d.values count).take taken).map symbol)

/-- What is drawn are hexadecimal numerals. -/
def DrawsDigits (d : Draws) : Prop := ∀ i, ∀ c ∈ (d.draw i).toList, c ∈ Text.lowerHexDigits

/-- The first texts, and then those behind them. -/
theorem upTo_add (d : Draws) (count more : Nat) :
    d.upTo (count + more) = d.upTo count ++ (d.skip count).upTo more := by
  rw [upTo, List.range_add, List.map_append, List.map_map]
  exact congrArg _ (List.map_congr_left fun i _ => (d.draw_skip count i).symm)

theorem upTo_succ (d : Draws) (count : Nat) :
    d.upTo (count + 1) = d.upTo count ++ [d.draw count] := by
  rw [upTo, List.range_succ, List.map_append, List.map_singleton]
  rfl

/-- A text is among the first ones if it is drawn as one of them. -/
theorem mem_upTo {d : Draws} {count : Nat} {text : String} :
    text ∈ d.upTo count ↔ ∃ i < count, d.draw i = text := by
  rw [upTo, List.mem_map]
  simp only [List.mem_range]

@[simp] theorem upTo_issue (d : Draws) (names : List String) (count : Nat) :
    (d.issue names).upTo count = d.upTo count := rfl

@[simp] theorem length_upTo (d : Draws) (count : Nat) : (d.upTo count).length = count := by
  rw [upTo, List.length_map, List.length_range]

/-- A value is drawn, and no name was issued for it. -/
theorem mem_values {d : Draws} {count : Nat} {text : String} :
    text ∈ d.values count ↔ text ∈ d.upTo count ∧ symbol text ∉ d.issued := by
  rw [values, mem_distinct, List.mem_filter, decide_eq_true_eq]

theorem nodup_values (d : Draws) (count : Nat) : (d.values count).Nodup := nodup_distinct _

/-- **Texts that are drawn** have different names if they are different. -/
theorem symbol_inj {text text' : String} (h : ∀ c ∈ text.toList, c ∈ Text.lowerHexDigits)
    (h' : ∀ c ∈ text'.toList, c ∈ Text.lowerHexDigits) (heq : symbol text = symbol text') :
    text = text' :=
  Text.upperCase_inj h h' ((String.append_right_inj _).mp heq)

/-- If the texts that are listed are numerals, all that is drawn are. -/
theorem drawsDigits_of_listed {d : Draws}
    (h : ∀ text ∈ d.listed, ∀ c ∈ text.toList, c ∈ Text.lowerHexDigits) : d.DrawsDigits := by
  intro i
  rcases d.draw_mem_or_counted i with hlisted | ⟨n, hcounted⟩
  · exact h _ hlisted
  · rw [hcounted]
    exact Text.mem_lowerHexDigits_of_mem_hex 32 n

namespace DrawsDigits

variable {d : Draws} (h : d.DrawsDigits)

include h

/-- What is behind the first draws are numerals as well. -/
theorem skip (count : Nat) : (d.skip count).DrawsDigits := by
  intro i
  rw [draw_skip]
  exact h (count + i)

/-- So is every text among the first ones. -/
theorem of_mem_upTo {count : Nat} {text : String} (ht : text ∈ d.upTo count) :
    ∀ c ∈ text.toList, c ∈ Text.lowerHexDigits := by
  obtain ⟨i, -, rfl⟩ := mem_upTo.mp ht
  exact h i

end DrawsDigits

/-! ## One call -/

section

variable {d : Draws} {passed : Nat} (hissued : ∀ i < passed, symbol (d.draw i) ∈ d.issued)
  (hnew : symbol (d.draw passed) ∉ d.issued)

include hissued

/-- As long as the names of the draws are issued, they are issued for the texts. -/
theorem symbol_mem_issued {count : Nat} (h : count ≤ passed) {text : String}
    (ht : text ∈ d.upTo count) : symbol text ∈ d.issued := by
  obtain ⟨i, hi, rfl⟩ := mem_upTo.mp ht
  exact hissued i (by omega)

/-- The first draws give no value as long as their names are issued. -/
theorem values_eq_nil {count : Nat} (h : count ≤ passed) : d.values count = [] := by
  refine List.eq_nil_iff_forall_not_mem.mpr fun text ht => ?_
  obtain ⟨hdrawn, hnew⟩ := mem_values.mp ht
  exact hnew (symbol_mem_issued hissued h hdrawn)

include hnew

/-- **A call takes the first value**, and leaves the others. -/
theorem values_next (hdigits : d.DrawsDigits) (later : Nat) :
    d.values (passed + 1 + later) = d.draw passed ::
      ((d.skip (passed + 1)).issue [symbol (d.draw passed)]).values later := by
  have hpassed : (d.upTo passed).filter (symbol · ∉ d.issued) = [] := by
    refine List.filter_eq_nil_iff.mpr fun text ht => ?_
    rw [decide_eq_true_eq, not_not]
    exact symbol_mem_issued hissued (Nat.le_refl _) ht
  have hfirst : [d.draw passed].filter (symbol · ∉ d.issued) = [d.draw passed] :=
    List.filter_cons_of_pos (decide_eq_true hnew)
  -- behind the call, the text that it has taken is no value any more, and only that one:
  -- another text with the same name would be the same text
  have hother : ∀ text ∈ (d.skip (passed + 1)).upTo later,
      (decide (text ≠ d.draw passed) && decide (symbol text ∉ d.issued))
        = decide (symbol text ∉ d.issued ++ [symbol (d.draw passed)]) := by
    intro text ht
    have hsame : symbol text = symbol (d.draw passed) ↔ text = d.draw passed :=
      ⟨symbol_inj ((hdigits.skip _).of_mem_upTo ht) (hdigits passed), congrArg symbol⟩
    rw [← Bool.decide_and, decide_eq_decide, List.mem_append, List.mem_singleton, not_or, hsame,
      and_comm]
  rw [values, upTo_add, upTo_succ, List.filter_append, List.filter_append, hpassed, List.nil_append,
    hfirst, List.singleton_append, distinct_cons, ← distinct_filter, List.filter_filter,
    List.filter_congr hother]
  rfl

/-- The first value is the draw that the call stops at, and the others are behind it. -/
theorem spent_next (hdigits : d.DrawsDigits) (later taken : Nat) :
    d.spent (passed + 1 + later) (taken + 1) = passed + 1 +
      ((d.skip (passed + 1)).issue [symbol (d.draw passed)]).spent later taken := by
  have hnot : ∀ text, symbol text ∉ d.issued → text ∉ d.upTo passed := fun text htext hin =>
    htext (symbol_mem_issued hissued (Nat.le_refl _) hin)
  rw [spent, values_next hissued hnew hdigits, List.take_succ_cons, List.getLast?_cons, upTo_add,
    upTo_succ, List.append_assoc, List.singleton_append, spent, upTo_issue]
  rcases hlast : (List.take taken _).getLast? with _ | text
  · -- no value is taken behind the call
    show List.idxOf (d.draw passed) _ + 1 = passed + 1
    rw [List.idxOf_append_of_notMem (hnot _ hnew), List.idxOf_cons_self, length_upTo]
  · -- the last value is a new one, so its first occurrence is behind the call
    show List.idxOf text _ + 1 = passed + 1 + (List.idxOf text _ + 1)
    obtain ⟨-, hfresh⟩ := mem_values.mp (List.mem_of_mem_take (List.mem_of_getLast? hlast))
    rw [issued_issue, issued_skip, List.mem_append, List.mem_singleton, not_or] at hfresh
    rw [List.idxOf_append_of_notMem (hnot text hfresh.1),
      List.idxOf_cons_ne _ fun heq => hfresh.2 (congrArg symbol heq.symm), length_upTo]
    omega

/-- **Values are taken one after the other.** -/
theorem after_next (hdigits : d.DrawsDigits) (later taken : Nat) :
    d.after (passed + 1 + later) (taken + 1)
      = ((d.skip (passed + 1)).issue [symbol (d.draw passed)]).after later taken := by
  rw [after, spent_next hissued hnew hdigits, values_next hissued hnew hdigits,
    List.take_succ_cons, List.map_cons, after, skip_issue, issue_issue, skip_skip,
    List.singleton_append]

end

@[simp] theorem after_zero (d : Draws) (count : Nat) : d.after count 0 = d := by
  have hspent : d.spent count 0 = 0 := by
    rw [spent, List.take_zero]
    rfl
  rw [after, hspent, skip_zero, List.take_zero, List.map_nil, issue_nil]

end Draws

/-! ## A number of calls -/

namespace EntryPoint

/-- Entry points of a number of calls. -/
def generateAll : Nat → Build (List EntryPoint)
  | 0 => return []
  | calls + 1 => do
    let first ← generate
    let later ← generateAll calls
    return first :: later

/-- One call, and then as many more. -/
theorem run_generateAll_succ {w : World} {first : EntryPoint}
    (hsymbol : ofSymbol w.draws.next.1 = .ok first) {calls : Nat} {later : List EntryPoint}
    {v : World}
    (hlater : (generateAll calls).run { w with draws := w.draws.next.2 } = (.ok later, v)) :
    (generateAll (calls + 1)).run w = (.ok (first :: later), v) := by
  rw [generateAll, run_bind, run_generate, hsymbol]
  dsimp only [Except.mapError]
  rw [run_bind_ok hlater, run_pure]

/-- **Entry points follow the stream.**  As many calls as there are values make one from
    each, in their order, and each number of calls has drawn up to the value of its last
    one. -/
theorem run_generateAll (w : World) (hdigits : w.draws.DrawsDigits) {count calls : Nat}
    (hmany : calls ≤ (w.draws.values count).length) :
    ∃ entries : List EntryPoint,
      entries.map symbol = ((w.draws.values count).take calls).map Draws.symbol ∧
      ∀ k ≤ calls, (generateAll k).run w
        = (.ok (entries.take k), { w with draws := w.draws.after count k }) := by
  induction calls generalizing w count with
  | zero =>
      refine ⟨[], rfl, fun k hk => ?_⟩
      rw [Nat.le_zero.mp hk, Draws.after_zero]
      rfl
  | succ calls ih =>
      obtain ⟨passed, hissued, hnew, hnext⟩ := w.draws.next_eq
      -- the first value is drawn among these, or there would be none
      obtain ⟨later, rfl⟩ : ∃ later, count = passed + 1 + later := by
        refine Nat.exists_eq_add_of_le (Nat.lt_of_not_le fun hle => ?_)
        rw [Draws.values_eq_nil hissued hle] at hmany
        exact Nat.not_succ_le_zero calls hmany
      rw [Draws.values_next hissued hnew hdigits] at hmany ⊢
      have hrest : calls ≤ (w.draws.next.2.values later).length := by
        rw [hnext]
        exact Nat.le_of_succ_le_succ hmany
      obtain ⟨entries, hentries, hruns⟩ :=
        ih { w with draws := w.draws.next.2 } (hnext ▸ hdigits.skip (passed + 1)) hrest
      have hvalid := Draws.isIdentifier_symbol (hdigits passed)
      have hsymbol : ofSymbol w.draws.next.1 = .ok ⟨_, hvalid⟩ := by
        rw [hnext]
        exact dif_pos hvalid
      refine ⟨⟨_, hvalid⟩ :: entries, ?_, fun k hk => ?_⟩
      · rw [List.map_cons, hentries, List.take_succ_cons, List.map_cons, hnext]
      · cases k with
        | zero =>
            rw [Draws.after_zero]
            rfl
        | succ k =>
            rw [Draws.after_next hissued hnew hdigits, List.take_succ_cons]
            refine run_generateAll_succ hsymbol ((hruns k (Nat.le_of_succ_le_succ hk)).trans ?_)
            rw [hnext]

/-- **What a number of calls answer**: the mark and, in capitals, the different texts of
    the stream in the order of their first occurrences, without those whose names were
    issued before.  All of them are identifiers, no two are the same, and none was issued
    before.  After each number of calls, the stream goes on behind the first occurrence
    that the last call has found.  There are so many different texts among the first
    draws, and what is listed are numerals. -/
theorem generateAll_draws (w : World) {count calls : Nat}
    (hdraws : ∀ text ∈ w.draws.listed, ∀ c ∈ text.toList, c ∈ Text.lowerHexDigits)
    (hmany : calls ≤ (w.draws.values count).length) :
    ∃ entries : List EntryPoint,
      entries.map symbol
        = ((w.draws.values count).take calls).map (fun text => "MREP_" ++ text.toUpper) ∧
      entries.Nodup ∧
      (∀ e ∈ entries, isIdentifier e.symbol.toList = true ∧ e.symbol ∉ w.draws.issued) ∧
      ∀ k ≤ calls, (generateAll k).run w
        = (.ok (entries.take k), { w with draws := w.draws.after count k }) := by
  have hdigits := Draws.drawsDigits_of_listed hdraws
  obtain ⟨entries, hentries, hruns⟩ := run_generateAll w hdigits hmany
  have hvalue : ∀ text ∈ (w.draws.values count).take calls,
      (∀ c ∈ text.toList, c ∈ Text.lowerHexDigits) ∧ Draws.symbol text ∉ w.draws.issued := by
    intro text htext
    obtain ⟨hdrawn, hnew⟩ := Draws.mem_values.mp (List.mem_of_mem_take htext)
    exact ⟨hdigits.of_mem_upTo hdrawn, hnew⟩
  refine ⟨entries, ?_, ?_, fun e he => ⟨e.valid, ?_⟩, hruns⟩
  · rw [hentries]
    refine List.map_congr_left fun text htext => ?_
    rw [Draws.symbol, Text.upperCase_eq_toUpper (hvalue text htext).1]
    rfl
  · -- different values have different names, as they are numerals
    refine List.Nodup.of_map symbol ?_
    rw [hentries]
    refine List.Nodup.map_on (fun text htext text' htext' => ?_)
      ((w.draws.nodup_values count).sublist (List.take_sublist _ _))
    exact Draws.symbol_inj (hvalue text htext).1 (hvalue text' htext').1
  · have hsymbol := List.mem_map_of_mem (f := symbol) he
    rw [hentries] at hsymbol
    obtain ⟨text, htext, hname⟩ := List.mem_map.mp hsymbol
    exact hname ▸ (hvalue text htext).2

/-- A world in which texts are drawn again and again, and one of them was issued before. -/
def repeatingWorld : World where
  files := ⟨[], []⟩
  draws := {
    listed := ["00112233445566778899aabbccddeeff", "00112233445566778899aabbccddeeff",
      "ffffffffffffffffffffffffffffffff", "00112233445566778899aabbccddeeff",
      "0123456789abcdef0123456789abcdef"]
    issued := ["MREP_FFFFFFFFFFFFFFFFFFFFFFFFFFFFFFFF"] }

theorem generateAll_draws_repeated :
    (∀ text ∈ repeatingWorld.draws.listed, ∀ c ∈ text.toList, c ∈ Text.lowerHexDigits) ∧
      2 ≤ (repeatingWorld.draws.values 5).length ∧
      ∃ entries : List EntryPoint,
        entries.map symbol = ["MREP_00112233445566778899AABBCCDDEEFF",
          "MREP_0123456789ABCDEF0123456789ABCDEF"] ∧
        (∀ k ≤ 2, (generateAll k).run repeatingWorld = (.ok (entries.take k),
          { repeatingWorld with draws := repeatingWorld.draws.after 5 k })) ∧
        (repeatingWorld.draws.spent 5 1, repeatingWorld.draws.spent 5 2) = (1, 5) := by
  have hdraws : ∀ text ∈ repeatingWorld.draws.listed, ∀ c ∈ text.toList,
      c ∈ Text.lowerHexDigits := by
    have hall : repeatingWorld.draws.listed.all
        (·.toList.all (· ∈ Text.lowerHexDigits)) = true := by decide
    intro text htext c hc
    exact of_decide_eq_true (List.all_eq_true.mp (List.all_eq_true.mp hall text htext) c hc)
  have hvalues : repeatingWorld.draws.values 5 = ["00112233445566778899aabbccddeeff",
      "0123456789abcdef0123456789abcdef"] := by decide
  have hmany : 2 ≤ (repeatingWorld.draws.values 5).length := by
    rw [hvalues]
    exact Nat.le_refl 2
  obtain ⟨entries, hentries, -, -, hruns⟩ := generateAll_draws repeatingWorld hdraws hmany
  refine ⟨hdraws, hmany, entries, ?_, hruns, ?_⟩
  · have hlisted : ∀ text ∈ repeatingWorld.draws.values 5,
        "MREP_" ++ text.toUpper = Draws.symbol text := by
      intro text htext
      have hmem : ∀ t ∈ repeatingWorld.draws.values 5, t ∈ repeatingWorld.draws.listed := by
        rw [hvalues]
        decide
      rw [Draws.symbol, Text.upperCase_eq_toUpper (hdraws text (hmem text htext))]
      rfl
    rw [hentries, List.take_of_length_le (by rw [hvalues]; decide), List.map_congr_left hlisted,
      hvalues]
    decide
  · rw [Draws.spent, Draws.spent, hvalues]
    decide

end EntryPoint

end AheadOfTime
