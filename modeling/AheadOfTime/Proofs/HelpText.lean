import AheadOfTime.Proofs.Law
import AheadOfTime.Toolchain.Probe
import Mathlib.Data.List.Basic
import Mathlib.Data.List.TakeWhile

/-! # Which options a help text advertises

    The back end is asked for its help text, which is gone through once, from left to
    right, taking as much as possible for every flag.  What is found that way is said
    here without going through anything: the text falls into runs of word characters and
    hyphens (`IsRun`), and a run offers what begins at its first hyphen that has a letter
    behind it (`Offers`).

    The two agree because a run is used up at once: in front of its first such hyphen
    nothing is found, and the flag that is found there reaches to the end of the run
    (`mem_flags_append`).  So the scan and the runs take the text apart in the same
    way, `mem_flags_iff`, and the options that the back end is given are those of
    `probeExceptionFlags_advertised`. -/

namespace AheadOfTime

namespace HelpText

/-! ## Runs and what they offer -/

/-- A letter from `A` to `Z` or from `a` to `z`. -/
def IsLetter (c : Char) : Prop := ('A' ≤ c ∧ c ≤ 'Z') ∨ ('a' ≤ c ∧ c ≤ 'z')

/-- A word character or a hyphen. -/
def IsPart (c : Char) : Prop := Text.isWord c = true ∨ c = '-'

/-- The first character is a hyphen and the second one a letter. -/
def StartsFlag (cs : List Char) : Prop :=
  ∃ letter later, cs = '-' :: letter :: later ∧ IsLetter letter

/-- The run between the two ends of a text is as long as it can be. -/
structure IsRunBetween (before run after : List Char) : Prop where
  ne_nil : run ≠ []
  parts : ∀ c ∈ run, IsPart c
  before : ∀ c ∈ before.getLast?, ¬ IsPart c
  after : ∀ c ∈ after.head?, ¬ IsPart c

/-- A maximal run of word characters and hyphens in the text. -/
def IsRun (text run : List Char) : Prop :=
  ∃ before after, text = before ++ run ++ after ∧ IsRunBetween before run after

/-- The option is the part of the run that starts at its first hyphen with a letter
    behind it. -/
def Offers (run option : List Char) : Prop :=
  ∃ before, run = before ++ option ∧ StartsFlag option ∧
    ∀ i < before.length, ¬ StartsFlag (run.drop i)

/-- Some run of the text offers the option. -/
def Advertises (text option : List Char) : Prop := ∃ run, IsRun text run ∧ Offers run option

variable {a c : Char} {text run rest before option option' : List Char}

/-- What the scan takes for a part of an option is one. -/
theorem isFlagPart_iff : isFlagPart c = true ↔ IsPart c := by
  simp [isFlagPart, IsPart]

/-- What the scan takes for a letter is one. -/
theorem isAlpha_iff : c.isAlpha = true ↔ IsLetter c := by
  have hupper : c.isUpper = true ↔ 'A' ≤ c ∧ c ≤ 'Z' := decide_eq_true_iff
  have hlower : c.isLower = true ↔ 'a' ≤ c ∧ c ≤ 'z' :=
    Bool.and_eq_true_iff.trans (and_congr decide_eq_true_iff decide_eq_true_iff)
  exact Bool.or_eq_true_iff.trans (or_congr hupper hlower)

/-- The letters stand in the first intervals of word characters. -/
theorem IsLetter.isPart (h : IsLetter c) : IsPart c := by
  have hcode : (0x41 ≤ c.toNat ∧ c.toNat ≤ 0x5A) ∨ (0x61 ≤ c.toNat ∧ c.toNat ≤ 0x7A) := h
  have hcovers : ∀ later, Text.covers ((0x30, 0x39) :: (0x41, 0x5A) :: (0x5F, 0x5F) ::
      (0x61, 0x7A) :: later) c.toNat = true := by
    intro later
    simp only [Text.covers]
    split_ifs
    all_goals first | rfl | omega
  exact .inl (hcovers _)

/-- A hyphen and a letter are enough to tell. -/
theorem startsFlag_cons_cons {b : Char} :
    StartsFlag (a :: b :: rest) ↔ a = '-' ∧ IsLetter b := by
  constructor
  · rintro ⟨letter, later, heq, hletter⟩
    obtain ⟨ha, heq⟩ := List.cons.inj heq
    obtain ⟨rfl, -⟩ := List.cons.inj heq
    exact ⟨ha, hletter⟩
  · rintro ⟨rfl, hletter⟩
    exact ⟨b, rest, rfl, hletter⟩

/-- What comes behind a run does not start a flag with the last character of the run. -/
theorem StartsFlag.of_append (hrest : ∀ c ∈ rest.head?, ¬ IsPart c)
    (h : StartsFlag (a :: (run ++ rest))) : StartsFlag (a :: run) := by
  rcases run with _ | ⟨b, run⟩
  · obtain ⟨letter, later, heq, hletter⟩ := h
    have hhead : rest.head? = some letter := by
      rw [show rest = letter :: later from (List.cons.inj heq).2, List.head?_cons]
    exact absurd hletter.isPart (hrest letter hhead)
  · exact startsFlag_cons_cons.mpr (startsFlag_cons_cons.mp h)

/-- A run that starts a flag offers itself. -/
theorem offers_iff_of_startsFlag (h : StartsFlag run) : Offers run option ↔ option = run := by
  constructor
  · rintro ⟨before, rfl, -, hfirst⟩
    rcases before with _ | ⟨b, before⟩
    · rfl
    · exact absurd h (hfirst 0 (Nat.succ_pos _))
  · rintro rfl
    exact ⟨[], rfl, h, nofun⟩

/-- A run that starts no flag offers what it offers without its first character. -/
theorem offers_cons_iff (h : ¬ StartsFlag (a :: run)) :
    Offers (a :: run) option ↔ Offers run option := by
  constructor
  · rintro ⟨before, heq, hoption, hfirst⟩
    rcases before with _ | ⟨b, before⟩
    · exact absurd (show StartsFlag (a :: run) from heq ▸ hoption) h
    · obtain ⟨rfl, rfl⟩ := List.cons.inj heq
      exact ⟨before, rfl, hoption, fun i hi => hfirst (i + 1) (Nat.succ_lt_succ hi)⟩
  · rintro ⟨before, rfl, hoption, hfirst⟩
    refine ⟨a :: before, rfl, hoption, ?_⟩
    rintro (_ | i) hi
    · exact h
    · exact hfirst i (Nat.lt_of_succ_lt_succ hi)

/-- Nothing offers no option. -/
theorem not_offers_nil : ¬ Offers [] option := by
  rintro ⟨before, heq, ⟨letter, later, rfl, -⟩, -⟩
  simp at heq

/-- A run offers one option at most. -/
theorem Offers.unique (h : Offers run option) (h' : Offers run option') : option = option' := by
  induction run with
  | nil => exact absurd h not_offers_nil
  | cons a run ih =>
      by_cases hstarts : StartsFlag (a :: run)
      · rw [(offers_iff_of_startsFlag hstarts).mp h, (offers_iff_of_startsFlag hstarts).mp h']
      · exact ih ((offers_cons_iff hstarts).mp h) ((offers_cons_iff hstarts).mp h')

/-- The candidate is only the start of what the run offers, or it stands at the end of
    the run, behind an earlier hyphen with a letter. -/
def OffersOther (run candidate : List Char) : Prop :=
  (∃ option, Offers run option ∧ candidate <+: option ∧ candidate ≠ option) ∨
    ∃ before, run = before ++ candidate ∧ ∃ i < before.length, StartsFlag (run.drop i)

/-- What is no more than the start or the tail of an option is not offered. -/
theorem OffersOther.not_offers (h : OffersOther run option) : ¬ Offers run option := by
  intro hoffers
  rcases h with ⟨option', hoffers', -, hne⟩ | ⟨before, rfl, i, hi, hearlier⟩
  · exact hne (hoffers.unique hoffers')
  · obtain ⟨before', heq, -, hfirst⟩ := hoffers
    obtain ⟨rfl, -⟩ := List.append_inj' heq rfl
    exact hfirst i hi hearlier

/-! ## The scan, run by run -/

/-- Where no option begins, the search goes on behind the character. -/
theorem flags_cons (h : ¬ StartsFlag (a :: text)) : flags (a :: text) = flags text := by
  rcases text with _ | ⟨b, text⟩
  · simp [flags]
  · rw [flags, if_neg]
    rintro ⟨rfl, hletter⟩
    exact h (startsFlag_cons_cons.mpr ⟨rfl, isAlpha_iff.mp hletter⟩)

/-- The scan takes a run up to its end. -/
theorem takeWhile_append_rest (hrun : ∀ c ∈ run, IsPart c)
    (hrest : ∀ c ∈ rest.head?, ¬ IsPart c) : (run ++ rest).takeWhile isFlagPart = run := by
  rw [List.takeWhile_append_of_pos fun c hc => isFlagPart_iff.mpr (hrun c hc)]
  cases rest with
  | nil => rw [List.takeWhile_nil, List.append_nil]
  | cons c rest =>
      rw [List.takeWhile_cons_of_neg fun hc => hrest c rfl (isFlagPart_iff.mp hc),
        List.append_nil]

/-- What comes behind the run is left to the scan. -/
theorem dropWhile_append_rest (hrun : ∀ c ∈ run, IsPart c)
    (hrest : ∀ c ∈ rest.head?, ¬ IsPart c) : (run ++ rest).dropWhile isFlagPart = rest := by
  have hcut := List.takeWhile_append_dropWhile (p := isFlagPart) (l := run ++ rest)
  rw [takeWhile_append_rest hrun hrest] at hcut
  exact List.append_cancel_left hcut

/-- Where a flag starts, as much as possible is taken for it. -/
theorem flags_append (h : StartsFlag run) (hrun : ∀ c ∈ run, IsPart c)
    (hrest : ∀ c ∈ rest.head?, ¬ IsPart c) : flags (run ++ rest) = run :: flags rest := by
  obtain ⟨letter, later, rfl, hletter⟩ := h
  have hlater : ∀ c ∈ later, IsPart c := fun c hc =>
    hrun c (List.mem_cons_of_mem _ (List.mem_cons_of_mem _ hc))
  rw [List.cons_append, List.cons_append, flags, if_pos ⟨rfl, isAlpha_iff.mpr hletter⟩,
    takeWhile_append_rest hlater hrest, dropWhile_append_rest hlater hrest]

/-- **A run is used up at once**: what is found in it is what it offers. -/
theorem mem_flags_append (hrun : ∀ c ∈ run, IsPart c) (hrest : ∀ c ∈ rest.head?, ¬ IsPart c) :
    option ∈ flags (run ++ rest) ↔ Offers run option ∨ option ∈ flags rest := by
  -- the scan drops characters of the run until a flag starts, which takes all of it
  induction run with
  | nil => simp [not_offers_nil]
  | cons a run ih =>
      by_cases hstarts : StartsFlag (a :: run)
      · rw [flags_append hstarts hrun hrest, List.mem_cons, offers_iff_of_startsFlag hstarts]
      · have hscan : ¬ StartsFlag (a :: (run ++ rest)) := fun h => hstarts (h.of_append hrest)
        rw [List.cons_append, flags_cons hscan, offers_cons_iff hstarts,
          ih (List.forall_mem_cons.mp hrun).2]

/-- A text ends like the last of its pieces, if there is anything to that one. -/
theorem forall_getLast?_append {l m : List Char} {P : Char → Prop}
    (h : ∀ c ∈ (l ++ m).getLast?, P c) : ∀ c ∈ m.getLast?, P c := by
  intro c hc
  refine h c ?_
  rw [List.getLast?_append, hc]
  rfl

/-- The runs of a text that starts with one are that one and those behind it. -/
theorem isRun_append_iff {first : List Char} (hfirst : ∀ c ∈ first, IsPart c)
    (hrest : ∀ c ∈ rest.head?, ¬ IsPart c) :
    IsRun (first ++ rest) run ↔ (run = first ∧ first ≠ []) ∨ IsRun rest run := by
  constructor
  · rintro ⟨before, after, heq, hbetween⟩
    rw [List.append_assoc] at heq
    rcases List.append_eq_append_iff.mp heq with ⟨more, rfl, hmore⟩ | ⟨more, hmore, hafter⟩
    · -- the run starts behind the first one
      right
      refine ⟨more, after, by rw [List.append_assoc, hmore], hbetween.ne_nil, hbetween.parts,
        forall_getLast?_append hbetween.before, hbetween.after⟩
    · -- the run starts in the first one, so it is the first one
      left
      rcases List.eq_nil_or_concat before with rfl | ⟨before, last, rfl⟩
      · rw [List.nil_append] at hmore
        have hrun : run = first := by
          rw [← takeWhile_append_rest hbetween.parts hbetween.after, hafter, ← hmore,
            takeWhile_append_rest hfirst hrest]
        exact ⟨hrun, hrun ▸ hbetween.ne_nil⟩
      · have hlast : last ∈ first := by simp [hmore]
        exact absurd (hfirst last hlast) (hbetween.before last (by simp))
  · rintro (⟨rfl, hne⟩ | ⟨before, after, rfl, hbetween⟩)
    · exact ⟨[], rest, by rw [List.nil_append], hne, hfirst, nofun, hrest⟩
    · by_cases hbefore : before = []
      · -- a run at the start of the rest would go on with the first one
        subst hbefore
        obtain ⟨c, run, rfl⟩ := List.exists_cons_of_ne_nil hbetween.ne_nil
        exact absurd (hbetween.parts c List.mem_cons_self) (hrest c rfl)
      · refine ⟨first ++ before, after, by simp only [List.append_assoc], hbetween.ne_nil,
          hbetween.parts, ?_, hbetween.after⟩
        rw [List.getLast?_append_of_ne_nil first hbefore]
        exact hbetween.before

/-- What is no part of a run makes none. -/
theorem isRun_cons_iff (hc : ¬ IsPart c) : IsRun (c :: rest) run ↔ IsRun rest run := by
  constructor
  · rintro ⟨before, after, heq, hbetween⟩
    rcases before with _ | ⟨d, before⟩
    · obtain ⟨d, run, rfl⟩ := List.exists_cons_of_ne_nil hbetween.ne_nil
      obtain ⟨rfl, -⟩ := List.cons.inj heq
      exact absurd (hbetween.parts c List.mem_cons_self) hc
    · exact ⟨before, after, (List.cons.inj heq).2, hbetween.ne_nil, hbetween.parts,
        forall_getLast?_append (l := [d]) hbetween.before, hbetween.after⟩
  · rintro ⟨before, after, rfl, hbetween⟩
    refine ⟨c :: before, after, rfl, hbetween.ne_nil, hbetween.parts, ?_, hbetween.after⟩
    by_cases hbefore : before = []
    · subst hbefore
      rintro d ⟨⟩
      exact hc
    · rw [← List.singleton_append, List.getLast?_append_of_ne_nil _ hbefore]
      exact hbetween.before

/-- A text without a character advertises nothing. -/
theorem not_advertises_nil : ¬ Advertises [] option := by
  rintro ⟨run, ⟨before, after, heq, hbetween⟩, -⟩
  exact hbetween.ne_nil (by simp_all)

/-- What stands between options advertises none. -/
theorem advertises_cons_iff (hc : ¬ IsPart c) :
    Advertises (c :: rest) option ↔ Advertises rest option := by
  simp only [Advertises, isRun_cons_iff hc]

/-- **A run of option characters** offers its own options and no others. -/
theorem advertises_append_iff {first : List Char} (hfirst : ∀ c ∈ first, IsPart c)
    (hrest : ∀ c ∈ rest.head?, ¬ IsPart c) :
    Advertises (first ++ rest) option ↔ Offers first option ∨ Advertises rest option := by
  constructor
  · rintro ⟨run, hrun, hoffers⟩
    rcases (isRun_append_iff hfirst hrest).mp hrun with ⟨rfl, -⟩ | hrun
    · exact .inl hoffers
    · exact .inr ⟨run, hrun, hoffers⟩
  · rintro (hoffers | ⟨run, hrun, hoffers⟩)
    · have hne : first ≠ [] := by
        rintro rfl
        exact not_offers_nil hoffers
      exact ⟨first, (isRun_append_iff hfirst hrest).mpr (.inl ⟨rfl, hne⟩), hoffers⟩
    · exact ⟨run, (isRun_append_iff hfirst hrest).mpr (.inr hrun), hoffers⟩

/-- A text is cut behind its first run, which is empty if it does not start with one. -/
theorem exists_cut (text : List Char) : ∃ first rest, text = first ++ rest ∧
    (∀ c ∈ first, IsPart c) ∧ ∀ c ∈ rest.head?, ¬ IsPart c := by
  refine ⟨text.takeWhile isFlagPart, text.dropWhile isFlagPart,
    List.takeWhile_append_dropWhile.symm,
    fun c hc => isFlagPart_iff.mp (List.mem_takeWhile_imp hc), fun c hc hpart => ?_⟩
  have hstop := List.head?_dropWhile_not isFlagPart text
  rw [hc] at hstop
  exact Bool.false_ne_true (hstop.symm.trans (isFlagPart_iff.mpr hpart))

/-- **The flags of a text** are the options that its runs offer. -/
theorem mem_flags_iff : option ∈ flags text ↔ Advertises text option := by
  -- each step takes the first run and the one character behind it
  induction hlength : text.length using Nat.strongRecOn generalizing text with
  | _ n ih =>
    subst hlength
    obtain ⟨first, rest, rfl, hfirst, hrest⟩ := exists_cut text
    rw [mem_flags_append hfirst hrest, advertises_append_iff hfirst hrest]
    refine or_congr_right ?_
    rcases rest with _ | ⟨c, rest⟩
    · simp [flags, not_advertises_nil]
    · have hc : ¬ IsPart c := hrest c rfl
      have hscan : ¬ StartsFlag (c :: rest) := by
        rintro ⟨letter, later, heq, -⟩
        exact hc (.inr (List.cons.inj heq).1)
      rw [flags_cons hscan, advertises_cons_iff hc]
      refine ih rest.length ?_ rfl
      rw [List.length_append, List.length_cons]
      omega

/-- **The flags that are found** are those that are advertised. -/
theorem contains_flags_iff : (flags text).contains option = true ↔ Advertises text option :=
  List.contains_iff_mem.trans mem_flags_iff

/-- Whether a text advertises an option is found out by the scan. -/
instance (text option : List Char) : Decidable (Advertises text option) :=
  decidable_of_iff _ contains_flags_iff

/-- A help text mentions a flag exactly if it advertises it. -/
theorem mentions_iff {help flag : String} :
    mentions help flag = true ↔ Advertises help.toList flag.toList := contains_flags_iff

end HelpText

/-- The options are looked for in the order in which they are preferred. -/
theorem exceptionFlags_eq (help : String) : exceptionFlags help =
    if HelpText.Advertises help.toList "-disable-cfi".toList then ["-disable-cfi"]
    else if HelpText.Advertises help.toList "-enable-eh".toList then ["-enable-eh"]
    else [] := by
  have hchoice : ∀ p : String → Bool, (exceptionFlagChoices.find? p).toList =
      if p "-disable-cfi" = true then ["-disable-cfi"]
      else if p "-enable-eh" = true then ["-enable-eh"] else [] := by
    intro p
    rw [exceptionFlagChoices, List.find?_cons, List.find?_cons, List.find?_nil]
    cases p "-disable-cfi" with
    | true => rfl
    | false =>
        cases p "-enable-eh" with
        | true => rfl
        | false => rfl
  rw [exceptionFlags, hchoice]
  simp only [HelpText.mentions_iff]

/-- Every flag that is chosen is advertised. -/
theorem advertises_of_mem_exceptionFlags {help flag : String} (h : flag ∈ exceptionFlags help) :
    HelpText.Advertises help.toList flag.toList :=
  HelpText.mentions_iff.mp (List.find?_some (Option.mem_toList.mp h))

/-- The probe answers for every status. -/
theorem Host.run_probeExceptionFlags (host : Host) (backend : Path) (w : World) {status : Int}
    {output : String} (h : (host.exchanged (probeCall backend) w).reply = .exited status output) :
    (host.probeExceptionFlags backend).run w
      = (.ok (exceptionFlags output), host.asked (probeCall backend) backend.toString w) := by
  have hcall : (host.run (probeCall backend)).run w
      = (.ok ⟨(probeCall backend).argv, status, output⟩,
          host.asked (probeCall backend) backend.toString w) := by
    rw [run_hostRun host (probeCall backend) rfl, h]
    exact if_neg fun hchecked => Bool.false_ne_true hchecked.1
  exact run_bind_ok hcall

/-- **What the back end is asked for** is read off its help text, with whatever status it
    ends: the preferred option that some run of the text offers.  An option that is only
    the start of what a run offers does not count there, nor does one that stands at the
    end of a run behind an earlier hyphen with a letter. -/
theorem Host.probeExceptionFlags_advertised (host : Host) (backend : Path) (w : World)
    {status : Int} {output : String}
    (h : (host.exchanged (probeCall backend) w).reply = .exited status output) :
    ∃ options, (host.probeExceptionFlags backend).run w
        = (.ok options, host.asked (probeCall backend) backend.toString w) ∧
      options = (if HelpText.Advertises output.toList "-disable-cfi".toList then ["-disable-cfi"]
        else if HelpText.Advertises output.toList "-enable-eh".toList then ["-enable-eh"]
        else []) ∧
      ∀ candidate : String,
        (∀ run, HelpText.IsRun output.toList run → candidate.toList <:+: run →
          HelpText.OffersOther run candidate.toList) → candidate ∉ options := by
  refine ⟨_, host.run_probeExceptionFlags backend w h, exceptionFlags_eq output,
    fun candidate hother hmem => ?_⟩
  obtain ⟨run, hrun, hoffers⟩ := advertises_of_mem_exceptionFlags hmem
  have hinfix : candidate.toList <:+: run := by
    obtain ⟨before, rfl, -, -⟩ := hoffers
    exact (List.suffix_append before _).isInfix
  exact (hother run hrun hinfix).not_offers hoffers

/-- A back end that fails with a help text in which the preferred option is the start of
    another one, and the other option stands behind an earlier one and by itself. -/
def helpingHost : Host where
  tools _ _ files := (.exited 1 "-disable-cfi-all x-a-enable-eh (-enable-eh)\n", files)

theorem Host.probeExceptionFlags_advertised_helping :
    (helpingHost.exchanged (probeCall (.ofString "llc")) mixedWorld).reply
        = .exited 1 "-disable-cfi-all x-a-enable-eh (-enable-eh)\n" ∧
      ((helpingHost.probeExceptionFlags (.ofString "llc")).run mixedWorld).1
        = .ok ["-enable-eh"] := by
  refine ⟨rfl, ?_⟩
  obtain ⟨options, hrun, hoptions, -⟩ :=
    helpingHost.probeExceptionFlags_advertised (.ofString "llc") mixedWorld rfl
  rw [hrun, hoptions]
  exact congrArg Except.ok (by decide +kernel)

end AheadOfTime
