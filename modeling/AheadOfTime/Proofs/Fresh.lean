import AheadOfTime.Proofs.Site
import Mathlib.Data.Bool.AllAny
import Mathlib.Data.List.Nodup
import Mathlib.Data.List.Perm.Subperm

/-! # Names that are given once

    A build names two kinds of things.  Scratch files are named after a stem, an
    identifier and an extension, and two of them differ if their identifiers do
    (`Scratch.id_eq_of_fileName`).  Entry points are named after drawn texts, and a
    name that was issued before is passed over; that there always is another one
    is a matter of counting (`Draws.exists_firstNewCount`): the counts give different
    names, and there is one more of them than names issued.  The draws are a stream,
    and each name is made from the first one that is left over (`Draws.next_eq`).

    For whole stretches of work, `Numbered` says of the files handed out that
    their identifiers follow one another, and `Drawn` says of entry points that
    they were drawn.  Both can be put together from one stretch and the next. -/

namespace AheadOfTime

/-! ## Numerals -/

namespace Text

/-- The number that hexadecimal digits in upper case write, behind the digits of
    `init`. -/
def ofHexDigits (digits : List Char) (init : Nat) : Nat :=
  digits.foldl (fun n c => 16 * n + (if c.isDigit then c.toNat - 48 else c.toNat - 55)) init

/-- Digits are read from the left. -/
theorem ofHexDigits_append (l m : List Char) (init : Nat) :
    ofHexDigits (l ++ m) init = ofHexDigits m (ofHexDigits l init) :=
  List.foldl_append

/-- Zeros in front are worth nothing. -/
theorem ofHexDigits_zeros (count : Nat) : ofHexDigits (List.replicate count '0') 0 = 0 := by
  induction count with
  | zero => rfl
  | succ count ih =>
      rw [List.replicate_succ]
      exact ih

/-- A digit is worth what it stands for. -/
theorem ofHexDigits_digitChar {k : Nat} (hk : k < 16) (init : Nat) :
    ofHexDigits [(Nat.digitChar k).toUpper] init = 16 * init + k := by
  have hdigit : ∀ k < 16, (if (Nat.digitChar k).toUpper.isDigit then
      (Nat.digitChar k).toUpper.toNat - 48 else (Nat.digitChar k).toUpper.toNat - 55) = k := by
    decide
  show 16 * init + (if _ then _ else _) = _
  rw [hdigit k hk]

/-- The digits of a number, in upper case, write the number. -/
theorem ofHexDigits_toDigits (n : Nat) :
    ofHexDigits ((Nat.toDigits 16 n).map Char.toUpper) 0 = n := by
  induction n using Nat.base_induction 16 (by decide) with
  | single m hm =>
      rw [Nat.toDigits_of_lt_base hm, List.map_singleton, ofHexDigits_digitChar hm]
      omega
  | digit m k hk hm ih =>
      rw [← Nat.toDigits_append_toDigits (by decide) hm hk, List.map_append, ofHexDigits_append, ih,
        Nat.toDigits_of_lt_base hk, List.map_singleton, ofHexDigits_digitChar hk]

/-- A hexadecimal numeral has nothing but letters and digits. -/
theorem isAlphanum_of_mem_hex (width n : Nat) :
    ∀ c ∈ (hex width n).toList, c.isAlphanum = true :=
  forall_mem_hex _ (by decide) width n

/-- The digits of hexadecimal numerals in lower case. -/
def lowerHexDigits : List Char := "0123456789abcdef".toList

/-- What is counted is spelled with small digits. -/
theorem mem_lowerHexDigits_of_mem_hex (width n : Nat) :
    ∀ c ∈ (hex width n).toList, c ∈ lowerHexDigits :=
  forall_mem_hex (· ∈ lowerHexDigits) (by decide) width n

/-- Numerals are capitalized digit by digit. -/
theorem toList_upperCase {text : String} (h : ∀ c ∈ text.toList, c ∈ lowerHexDigits) :
    (upperCase text).toList = text.toList.map Char.toUpper := by
  have hdigit : ∀ c ∈ lowerHexDigits, upperChar c = [c.toUpper] :=
    List.all_iff_forall_prop.mp (by decide)
  rw [upperCase, String.toList_ofList, List.flatMap_congr fun c hc => hdigit c (h c hc),
    List.map_eq_flatMap]

/-- **Different numbers** have different numerals, also in upper case. -/
theorem upperCase_hex_injective (width : Nat) :
    Function.Injective fun n => upperCase (hex width n) := by
  intro m n (h : upperCase (hex width m) = upperCase (hex width n))
  have hvalue : ∀ n, ofHexDigits (upperCase (hex width n)).toList 0 = n := by
    intro n
    rw [toList_upperCase (mem_lowerHexDigits_of_mem_hex width n), hex, zeroFill,
      String.toList_ofList, List.map_append, List.map_replicate,
      show Char.toUpper '0' = '0' from rfl, ofHexDigits_append, ofHexDigits_zeros,
      ofHexDigits_toDigits]
  calc
    m = ofHexDigits (upperCase (hex width m)).toList 0 := (hvalue m).symm
    _ = ofHexDigits (upperCase (hex width n)).toList 0 := by rw [h]
    _ = n := hvalue n

end Text

/-! ## Drawn names -/

namespace Draws

/-- Different counts give different names. -/
theorem symbol_counted_injective : Function.Injective fun n => symbol (counted n) := by
  intro m n (h : symbol (counted m) = symbol (counted n))
  exact Text.upperCase_hex_injective 32 ((String.append_right_inj _).mp h)

/-- The search passes over counts that are issued, and ends at a new one unless it has
    run out of tries. -/
theorem firstNewCount_spec (issued : List String) (tries number : Nat) :
    ∃ passed, firstNewCount issued tries number = number + passed ∧
      (∀ i < passed, symbol (counted (number + i)) ∈ issued) ∧
      (symbol (counted (number + passed)) ∉ issued ∨ passed = tries) := by
  induction tries generalizing number with
  | zero => exact ⟨0, rfl, fun i hi => absurd hi (Nat.not_lt_zero i), .inr rfl⟩
  | succ tries ih =>
      unfold firstNewCount
      by_cases hin : symbol (counted number) ∈ issued
      · obtain ⟨passed, hfound, hpassed, hend⟩ := ih (number + 1)
        rw [if_pos hin]
        refine ⟨passed + 1, by omega, fun i hi => ?_, ?_⟩
        · cases i with
          | zero => exact hin
          | succ i =>
              rw [show number + (i + 1) = number + 1 + i by omega]
              exact hpassed i (by omega)
        · rw [show number + (passed + 1) = number + 1 + passed by omega]
          exact hend.imp_right (congrArg (· + 1))
      · rw [if_neg hin]
        exact ⟨0, rfl, fun i hi => absurd hi (Nat.not_lt_zero i), .inl hin⟩

/-- **The first new count is found** among as many as there are issued names and one
    more. -/
theorem exists_firstNewCount (issued : List String) (number : Nat) :
    ∃ passed, firstNewCount issued issued.length number = number + passed ∧
      (∀ i < passed, symbol (counted (number + i)) ∈ issued) ∧
      symbol (counted (number + passed)) ∉ issued := by
  obtain ⟨passed, hfound, hpassed, hend⟩ := firstNewCount_spec issued issued.length number
  refine ⟨passed, hfound, hpassed, hend.elim id fun hlast hin => ?_⟩
  -- all the counts would be issued, and they are too many for that
  let names := (List.range (issued.length + 1)).map fun i => symbol (counted (number + i))
  have hnodup : names.Nodup := List.Nodup.map
    (fun i j hij => Nat.add_left_cancel (symbol_counted_injective hij)) List.nodup_range
  have hsub : names ⊆ issued := by
    intro name hname
    obtain ⟨i, hi, rfl⟩ := List.mem_map.mp hname
    rcases Nat.lt_succ_iff_lt_or_eq.mp (List.mem_range.mp hi) with hlt | rfl
    · exact hpassed i (hlast ▸ hlt)
    · exact hlast ▸ hin
  have hlength := (List.subperm_of_subset hnodup hsub).length_le
  rw [List.length_map, List.length_range] at hlength
  omega

/-- The text of the draw that has this many draws before it. -/
def draw (d : Draws) (i : Nat) : String := d.listed.getD i (counted (d.made + i + 1))

/-- The draws behind the first ones. -/
def skip (d : Draws) (count : Nat) : Draws :=
  { d with listed := d.listed.drop count, made := d.made + count }

/-- The draws when these names have been issued, too. -/
def issue (d : Draws) (names : List String) : Draws := { d with issued := d.issued ++ names }

@[simp] theorem issued_skip (d : Draws) (count : Nat) : (d.skip count).issued = d.issued := rfl

@[simp] theorem issued_issue (d : Draws) (names : List String) :
    (d.issue names).issued = d.issued ++ names := rfl

/-- Behind some draws are those that come after them. -/
@[simp] theorem draw_skip (d : Draws) (count i : Nat) :
    (d.skip count).draw i = d.draw (count + i) := by
  show (d.listed.drop count).getD i (counted (d.made + count + i + 1)) = d.draw (count + i)
  rw [List.getD_eq_getElem?_getD, List.getElem?_drop, ← List.getD_eq_getElem?_getD,
    Nat.add_assoc d.made]
  rfl

theorem skip_zero (d : Draws) : d.skip 0 = d := rfl

/-- Draws that are skipped twice are skipped together. -/
theorem skip_skip (d : Draws) (count more : Nat) :
    (d.skip count).skip more = d.skip (count + more) := by
  rw [skip, skip, List.drop_drop, Nat.add_assoc]
  rfl

theorem skip_issue (d : Draws) (names : List String) (count : Nat) :
    (d.issue names).skip count = (d.skip count).issue names := rfl

theorem issue_nil (d : Draws) : d.issue [] = d := by
  rw [issue, List.append_nil]

/-- Names that are issued twice are issued together. -/
theorem issue_issue (d : Draws) (names more : List String) :
    (d.issue names).issue more = d.issue (names ++ more) := by
  rw [issue, issue, List.append_assoc]
  rfl

/-- **A new name is made from the first draw** that has not been issued, and the draws
    up to that one are used up. -/
theorem next_eq (d : Draws) :
    ∃ passed, (∀ i < passed, symbol (d.draw i) ∈ d.issued) ∧
      symbol (d.draw passed) ∉ d.issued ∧
      d.next = (symbol (d.draw passed),
        (d.skip (passed + 1)).issue [symbol (d.draw passed)]) := by
  obtain ⟨listed, made, issued⟩ := d
  -- induction on the listed draws; one of the counted draws behind them is new
  induction listed generalizing made with
  | nil =>
      obtain ⟨passed, hfound, hpassed, hnew⟩ := exists_firstNewCount issued (made + 1)
      have hdraw : ∀ i, draw ⟨[], made, issued⟩ i = counted (made + 1 + i) := fun i =>
        congrArg counted (Nat.add_right_comm made i 1)
      refine ⟨passed, fun i hi => hdraw i ▸ hpassed i hi, hdraw passed ▸ hnew, ?_⟩
      rw [hdraw, ← hfound]
      show (_, Draws.mk _ _ _) = (_, Draws.mk _ (made + (passed + 1)) _)
      rw [hfound, Nat.add_right_comm made 1 passed]
      rfl
  | cons text later ih =>
      by_cases hin : symbol text ∈ issued
      · obtain ⟨passed, hpassed, hnew, hnext⟩ := ih (made + 1)
        have hdraw : ∀ i, draw ⟨text :: later, made, issued⟩ (i + 1)
            = draw ⟨later, made + 1, issued⟩ i := by
          intro i
          rw [show Draws.mk later (made + 1) issued = skip ⟨text :: later, made, issued⟩ 1
            from rfl, draw_skip, Nat.add_comm 1 i]
        refine ⟨passed + 1, fun i hi => ?_, hdraw passed ▸ hnew, ?_⟩
        · cases i with
          | zero => exact hin
          | succ i => exact hdraw i ▸ hpassed i (by omega)
        · rw [hdraw]
          refine (if_pos hin).trans (hnext.trans ?_)
          show (_, Draws.mk _ (made + 1 + (passed + 1)) _)
            = (_, Draws.mk _ (made + (passed + 1 + 1)) _)
          rw [Nat.add_right_comm made 1, Nat.add_assoc made]
          rfl
      · exact ⟨0, fun i hi => absurd hi (Nat.not_lt_zero i), hin, if_neg hin⟩

/-- **A drawn name is new**, and is issued from then on. -/
theorem next_spec (d : Draws) :
    d.next.1 ∉ d.issued ∧ d.next.2.issued = d.issued ++ [d.next.1] := by
  obtain ⟨passed, -, hnew, hnext⟩ := d.next_eq
  rw [hnext]
  exact ⟨hnew, rfl⟩

end Draws

/-! ## Names of scratch files -/

/-- What stands before the first separator. -/
theorem takeWhile_append_separator {α : Type} [DecidableEq α] {a : α} {l : List α} (h : a ∉ l)
    (m : List α) : (l ++ a :: m).takeWhile (· ≠ a) = l := by
  have hother : ∀ b ∈ l, decide (b ≠ a) = true := by
    intro b hb
    exact decide_eq_true fun heq => h (heq ▸ hb)
  rw [List.takeWhile_append_of_pos hother, List.takeWhile_cons_of_neg (by simp), List.append_nil]

namespace Scratch

/-- The extensions of the files that a compilation hands from call to call. -/
def extensions : List String := [".bc", ".s", ".o"]

/-- No extension of a scratch file leads to another directory. -/
theorem slash_not_mem_extension {extension : String} (h : extension ∈ extensions) :
    '/' ∉ extension.toList := by
  revert extension
  decide

/-- No extension of a scratch file is taken for its identifier. -/
theorem hyphen_not_mem_extension {extension : String} (h : extension ∈ extensions) :
    '-' ∉ extension.toList := by
  revert extension
  decide

/-- What stands behind the last hyphen of a scratch file's name. -/
theorem tail_of_fileName (stem : String) {id extension : String} (hid : '-' ∉ id.toList)
    (hextension : '-' ∉ extension.toList) :
    ((fileName stem id extension).toList.reverse.takeWhile (· ≠ '-')).reverse
      = id.toList ++ extension.toList := by
  have hhyphen : '-' ∉ (id.toList ++ extension.toList).reverse := by
    rw [List.mem_reverse, List.mem_append, not_or]
    exact ⟨hid, hextension⟩
  have hname : (fileName stem id extension).toList.reverse
      = (id.toList ++ extension.toList).reverse ++ '-' :: (safeStem stem).toList.reverse := by
    simp [fileName]
  rw [hname, takeWhile_append_separator hhyphen, List.reverse_reverse]

/-- **Scratch files of one name** have one identifier. -/
theorem id_eq_of_fileName {stem stem' id id' extension extension' : String}
    (hid : ∀ c ∈ id.toList, c.isAlphanum = true) (hid' : ∀ c ∈ id'.toList, c.isAlphanum = true)
    (hextension : extension ∈ extensions) (hextension' : extension' ∈ extensions)
    (h : fileName stem id extension = fileName stem' id' extension') : id = id' := by
  have hdotted : ∀ e ∈ extensions, e.toList = '.' :: e.toList.tail := by decide
  have hhead : ∀ {i e : String}, (∀ c ∈ i.toList, c.isAlphanum = true) → e ∈ extensions →
      (i.toList ++ e.toList).takeWhile (· ≠ '.') = i.toList := by
    intro i e hi he
    rw [hdotted e he]
    exact takeWhile_append_separator (fun hin => absurd (hi _ hin) (by decide)) _
  have hhyphen : ∀ {i : String}, (∀ c ∈ i.toList, c.isAlphanum = true) → '-' ∉ i.toList :=
    fun hi hin => absurd (hi _ hin) (by decide)
  have htails := tail_of_fileName stem (hhyphen hid) (hyphen_not_mem_extension hextension)
  rw [h, tail_of_fileName stem' (hhyphen hid') (hyphen_not_mem_extension hextension')] at htails
  rw [← String.toList_inj, ← hhead hid hextension, ← htails, hhead hid' hextension']

end Scratch

/-! ## Numbers and draws -/

/-- Files in the directory that are named after identifiers with growing numbers,
    above `lo` and not above `hi`. -/
inductive Numbered (host : Host) (d : Path) : Nat → Nat → List Path → Prop where
  | nil {lo hi : Nat} : lo ≤ hi → Numbered host d lo hi []
  | cons {lo n hi : Nat} {files : List Path} (stem : String) {extension : String} : lo < n →
      extension ∈ Scratch.extensions → Numbered host d n hi files →
      Numbered host d lo hi (d.child (Scratch.fileName stem (host.scratchId n) extension) :: files)

namespace Numbered

variable {host : Host} {d : Path} {lo mid hi : Nat} {files more : List Path}

/-- Identifiers are drawn upwards. -/
theorem le (h : Numbered host d lo hi files) : lo ≤ hi := by
  induction h with
  | nil hle => exact hle
  | cons _ hlt _ _ ih => omega

/-- Files that were numbered above a bound are numbered above a lower one. -/
theorem from_lower (h : Numbered host d mid hi files) (hle : lo ≤ mid) :
    Numbered host d lo hi files := by
  cases h with
  | nil hle' => exact .nil (by omega)
  | cons stem hlt hextension hlater => exact .cons stem (by omega) hextension hlater

/-- **Lists that are numbered one behind the other** are numbered as a whole. -/
theorem append (h : Numbered host d lo mid files) (h' : Numbered host d mid hi more) :
    Numbered host d lo hi (files ++ more) := by
  induction h with
  | nil hle => exact h'.from_lower hle
  | cons stem hlt hextension _ ih => exact .cons stem hlt hextension (ih h')

/-- Every file has been given a number between the bounds. -/
theorem exists_of_mem (h : Numbered host d lo hi files) {f : Path} (hf : f ∈ files) :
    ∃ n stem extension, lo < n ∧ n ≤ hi ∧ extension ∈ Scratch.extensions ∧
      f = d.child (Scratch.fileName stem (host.scratchId n) extension) := by
  induction h with
  | nil => exact nomatch hf
  | @cons lo n hi files stem extension hlt hextension hlater ih =>
      rcases List.mem_cons.mp hf with rfl | hf
      · exact ⟨n, stem, extension, hlt, hlater.le, hextension, rfl⟩
      · obtain ⟨n', stem', extension', hlt', hle', hextension', rfl⟩ := ih hf
        exact ⟨n', stem', extension', by omega, hle', hextension', rfl⟩

section

variable (hids : ∀ n, ∀ c ∈ (host.scratchId n).toList, c.isAlphanum = true)

include hids

private theorem slash_not_mem (n : Nat) : '/' ∉ (host.scratchId n).toList :=
  fun hin => absurd (hids n _ hin) (by decide)

/-- Numbered files lie directly in the directory. -/
theorem isScratch (h : Numbered host d lo hi files) : ∀ f ∈ files, d.IsScratch f := by
  intro f hf
  obtain ⟨n, stem, extension, -, -, hextension, rfl⟩ := h.exists_of_mem hf
  exact Scratch.isScratch_fileName d stem (slash_not_mem hids n)
    (Scratch.slash_not_mem_extension hextension)

/-- **Numbered files are different**, if their identifiers are. -/
theorem nodup (h : Numbered host d lo hi files)
    (hdistinct : ∀ m n, lo < m → m < n → n ≤ hi → host.scratchId m ≠ host.scratchId n) :
    files.Nodup := by
  induction h with
  | nil => exact List.nodup_nil
  | @cons lo n hi files stem extension hlt hextension hlater ih =>
      refine List.nodup_cons.mpr ⟨fun hin => ?_, ih fun m n' hm => hdistinct m n' (by omega)⟩
      -- the file would have the name of a later one, whose number is greater
      obtain ⟨n', stem', extension', hlt', hle', hextension', hsame⟩ := hlater.exists_of_mem hin
      obtain ⟨hslash, hdot, -⟩ := Scratch.isProper_fileName stem (slash_not_mem hids n)
        (Scratch.slash_not_mem_extension hextension)
      obtain ⟨hslash', hdot', -⟩ := Scratch.isProper_fileName stem' (slash_not_mem hids n')
        (Scratch.slash_not_mem_extension hextension')
      rw [d.child_of_name hslash hdot, d.child_of_name hslash' hdot'] at hsame
      have hname := List.append_cancel_left (Path.mk.inj hsame).2
      exact hdistinct n n' hlt hlt' hle'
        (Scratch.id_eq_of_fileName (hids n) (hids n') hextension hextension'
          (List.cons.inj hname).1)

end

end Numbered

/-- The names were drawn between these draws: they are different ones, were not
    issued before, and are issued now. -/
structure Drawn (d d' : Draws) (names : List String) : Prop where
  issued : d.issued ⊆ d'.issued
  nodup : names.Nodup
  new : ∀ name ∈ names, name ∉ d.issued
  kept : ∀ name ∈ names, name ∈ d'.issued

namespace Drawn

variable {d d' d'' : Draws} {names more : List String}

theorem refl (d : Draws) : Drawn d d [] :=
  ⟨List.Subset.refl _, List.nodup_nil, List.forall_mem_nil _, List.forall_mem_nil _⟩

/-- Names that were drawn behind others. -/
theorem append (h : Drawn d d' names) (h' : Drawn d' d'' more) : Drawn d d'' (names ++ more) where
  issued := List.Subset.trans h.issued h'.issued
  nodup := List.nodup_append.mpr ⟨h.nodup, h'.nodup, fun a ha b hb hab =>
    h'.new b hb (hab ▸ h.kept a ha)⟩
  new := List.forall_mem_append.mpr ⟨h.new, fun name hname hin => h'.new name hname (h.issued hin)⟩
  kept := List.forall_mem_append.mpr ⟨fun name hname => h'.issued (h.kept name hname), h'.kept⟩

/-- The next name is drawn. -/
theorem next (d : Draws) : Drawn d d.next.2 [d.next.1] := by
  obtain ⟨hnew, hissued⟩ := d.next_spec
  refine ⟨?_, List.nodup_singleton _, List.forall_mem_singleton.mpr hnew,
    List.forall_mem_singleton.mpr ?_⟩
  · rw [hissued]
    exact List.subset_append_left _ _
  · rw [hissued]
    exact List.mem_append_right _ List.mem_cons_self

/-- A name that comes to nothing was drawn all the same. -/
theorem forget (h : Drawn d d' names) : Drawn d d' [] :=
  ⟨h.issued, List.nodup_nil, List.forall_mem_nil _, List.forall_mem_nil _⟩

end Drawn

end AheadOfTime
