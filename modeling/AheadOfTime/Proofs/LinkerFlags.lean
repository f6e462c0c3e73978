import AheadOfTime.CommandLine.Arguments
import AheadOfTime.Proofs.Plan
import Mathlib.Data.List.Basic

/-! # Linker options that are left out

    Only dynamic libraries take an install name and version numbers.  What is linked
    into anything else is linked without these options, each of which has its value
    behind it, and a warning names the options that are ignored.

    A list of flags is read as items: options with their values, and other flags.  There
    is one way to do so (`LinkerItem.reads_iff`), in which a value is never taken for an
    option, and linking goes by it (`withoutDylibOptions_eq`).  The warning does not: it
    names each element that looks like an option, which is the options of the reading and
    such values as happen to be named like one (`Reads.filter_eq`).
    `validate_names_ignored` says what the warning names, and that this is what linking
    leaves out just where no value is the name of an option.

    Where options are put between flags with their values (`Padded`), linking gives the
    flags back, whatever the values are: `withoutDylibOptions_padded`. -/

namespace AheadOfTime

/-! ## Reading linker flags -/

/-- What stands on a list of linker flags. -/
inductive LinkerItem where
  /-- A flag with which anything may be linked. -/
  | flag (text : String)
  /-- An option for dynamic libraries and its value, which is missing if the list ends
      with the option. -/
  | dylibOption (name : String) (value : Option String)
  deriving DecidableEq, Repr

namespace LinkerItem

/-- The elements of the list that make the item. -/
def texts : LinkerItem → List String
  | flag text => [text]
  | dylibOption name value => name :: value.toList

/-- The flag with which anything is linked. -/
def kept? : LinkerItem → Option String
  | flag text => some text
  | dylibOption _ _ => none

/-- The option with which only a dynamic library is linked. -/
def option? : LinkerItem → Option String
  | flag _ => none
  | dylibOption name _ => some name

/-- The value of the option. -/
def value? : LinkerItem → Option String
  | flag _ => none
  | dylibOption _ value => value

/-- The item is an option just if it is named like one. -/
def IsRead : LinkerItem → Prop
  | flag text => text ∉ dylibOnlyOptions
  | dylibOption name _ => name ∈ dylibOnlyOptions

/-- The item is no option without a value. -/
def IsComplete : LinkerItem → Prop
  | flag _ => True
  | dylibOption _ value => value ≠ none

/-- The items make up the list, they are read for what they are named, and there is an
    option without a value at most at the end. -/
structure Reads (flags : List String) (items : List LinkerItem) : Prop where
  texts : items.flatMap texts = flags
  read : ∀ item ∈ items, item.IsRead
  complete : ∀ item ∈ items.dropLast, item.IsComplete

/-- The items of a list of flags, found from left to right. -/
def ofFlags : List String → List LinkerItem
  | [] => []
  | [text] => [if text ∈ dylibOnlyOptions then dylibOption text none else flag text]
  | text :: next :: later =>
    if text ∈ dylibOnlyOptions then dylibOption text (some next) :: ofFlags later
    else flag text :: ofFlags (next :: later)

/-- The elements of the item that are named like an option. -/
def named (item : LinkerItem) : List String := item.texts.filter (· ∈ dylibOnlyOptions)

/-- An option may have the name of another one for its value, and is still one option. -/
example : ofFlags ["-install_name", "-current_version", "-dead_strip", "-current_version"] =
    [.dylibOption "-install_name" (some "-current_version"), .flag "-dead_strip",
      .dylibOption "-current_version" none] := by decide

/-- What is no option is found to be a flag, whatever stands behind it. -/
theorem ofFlags_cons {text : String} (h : text ∉ dylibOnlyOptions) (later : List String) :
    ofFlags (text :: later) = flag text :: ofFlags later := by
  cases later with
  | nil => exact congrArg (fun item => [item]) (if_neg h)
  | cons next later => exact if_neg h

namespace Reads

variable {flags later : List String} {item : LinkerItem} {items : List LinkerItem}

theorem cons (h : Reads later items) (hread : item.IsRead) (hcomplete : item.IsComplete) :
    Reads (item.texts ++ later) (item :: items) where
  texts := by rw [List.flatMap_cons, h.texts]
  read := List.forall_mem_cons.mpr ⟨hread, h.read⟩
  complete := by
    cases items with
    | nil => exact List.forall_mem_nil _
    | cons next items => exact List.forall_mem_cons.mpr ⟨hcomplete, h.complete⟩

theorem tail (h : Reads flags (item :: items)) : Reads (items.flatMap LinkerItem.texts) items where
  texts := rfl
  read := (List.forall_mem_cons.mp h.read).2
  complete := by
    cases items with
    | nil => exact List.forall_mem_nil _
    | cons next items => exact (List.forall_mem_cons.mp h.complete).2

/-- An option without a value is the last item. -/
theorem eq_nil {name : String} (h : Reads flags (.dylibOption name none :: items)) :
    items = [] := by
  cases items with
  | nil => rfl
  | cons next items => exact absurd rfl (h.complete _ List.mem_cons_self)

/-- The items of a reading are found from left to right. -/
theorem eq_ofFlags (h : Reads flags items) : items = ofFlags flags := by
  rw [← h.texts]
  induction items generalizing flags with
  | nil => rfl
  | cons item items ih =>
      have hitem := (List.forall_mem_cons.mp h.read).1
      have hitems := ih h.tail
      rw [List.flatMap_cons]
      rcases item with text | ⟨name, _ | value⟩
      · show _ = ofFlags (text :: items.flatMap LinkerItem.texts)
        rw [ofFlags_cons hitem, ← hitems]
      · rw [h.eq_nil]
        exact congrArg (fun item => [item]) (if_pos hitem).symm
      · have hname : name ∈ dylibOnlyOptions := hitem
        show _ = ofFlags (name :: value :: items.flatMap LinkerItem.texts)
        rw [ofFlags, if_pos hname, ← hitems]

end Reads

/-- What is found from left to right makes up the list. -/
theorem reads_ofFlags (flags : List String) : Reads flags (ofFlags flags) := by
  fun_induction ofFlags flags with
  | case1 => exact ⟨rfl, List.forall_mem_nil _, List.forall_mem_nil _⟩
  | case2 text =>
      refine ⟨?_, List.forall_mem_singleton.mpr ?_, List.forall_mem_nil _⟩
      · split
        · rfl
        · rfl
      · split
        · assumption
        · assumption
  | case3 text next later hoption ih =>
      show Reads ((dylibOption text (some next)).texts ++ later) _
      exact ih.cons hoption (Option.some_ne_none next)
  | case4 text next later hoption ih =>
      show Reads ((flag text).texts ++ next :: later) _
      exact ih.cons hoption trivial

/-- **There is one reading** of every list of flags. -/
theorem reads_iff {flags : List String} {items : List LinkerItem} :
    Reads flags items ↔ items = ofFlags flags := by
  constructor
  · exact Reads.eq_ofFlags
  · rintro rfl
    exact reads_ofFlags flags

/-- **Linking keeps** the flags of the reading. -/
theorem withoutDylibOptions_eq (flags : List String) :
    withoutDylibOptions flags = (ofFlags flags).filterMap kept? := by
  fun_induction ofFlags flags with
  | case1 => rfl
  | case2 text =>
      rw [withoutDylibOptions]
      split
      · rfl
      · rfl
  | case3 text next later hoption ih =>
      rw [withoutDylibOptions, if_pos hoption, ih]
      rfl
  | case4 text next later hoption ih =>
      rw [withoutDylibOptions, if_neg hoption, ih]
      rfl

/-! ## Naming what is left out -/

/-- What is named like an option, item by item. -/
theorem Reads.filter_eq {flags : List String} {items : List LinkerItem} (h : Reads flags items) :
    flags.filter (· ∈ dylibOnlyOptions) = items.flatMap named := by
  rw [← h.texts]
  exact List.filter_flatMap

/-- The options of a reading are named, and besides them the values that are named like
    one. -/
theorem named_of_isRead {item : LinkerItem} (h : item.IsRead) :
    item.named = item.option?.toList ++ item.value?.toList.filter (· ∈ dylibOnlyOptions) := by
  cases item with
  | flag text =>
      have hflag : text ∉ dylibOnlyOptions := h
      exact List.filter_cons_of_neg (by simpa using hflag)
  | dylibOption name value =>
      have hname : name ∈ dylibOnlyOptions := h
      exact List.filter_cons_of_pos (by simpa using hname)

/-- What is added to a list piece by piece makes no difference just if it is nothing. -/
theorem flatMap_append_eq_iff {α β : Type} {f g : α → List β} {l : List α} :
    (l.flatMap fun a => f a ++ g a) = l.flatMap f ↔ ∀ a ∈ l, g a = [] := by
  have hlength : (l.flatMap fun a => f a ++ g a).length
      = (l.flatMap f).length + (l.flatMap g).length := by
    induction l with
    | nil => rfl
    | cons a later ih =>
        simp only [List.flatMap_cons, List.length_append, ih]
        omega
  constructor
  · intro h
    rw [h] at hlength
    have hnone : l.flatMap g = [] := List.length_eq_zero_iff.mp (by omega)
    exact List.flatMap_eq_nil_iff.mp hnone
  · intro h
    refine List.flatMap_congr fun a ha => ?_
    rw [h a ha, List.append_nil]

/-- **What is named is what is left out** just if no value is the name of an option. -/
theorem Reads.flatMap_named_eq_iff {flags : List String} {items : List LinkerItem}
    (h : Reads flags items) : items.flatMap named = items.filterMap option? ↔
      ∀ item ∈ items, ∀ value ∈ item.value?, value ∉ dylibOnlyOptions := by
  have hnamed : items.flatMap named = items.flatMap fun item =>
      item.option?.toList ++ item.value?.toList.filter (· ∈ dylibOnlyOptions) :=
    List.flatMap_congr fun item hitem => named_of_isRead (h.read item hitem)
  rw [hnamed, List.filterMap_eq_flatMap_toList, flatMap_append_eq_iff]
  refine forall₂_congr fun item _ => ?_
  simp

end LinkerItem

/-- The linker options that a warning says are ignored. -/
def Notice.optionsNamed : Notice → List String
  | ignoredLinkerOptions _ options => options
  | _ => []

theorem Request.flatMap_optionsNamed_notices {r : Request} (h : r.kind ≠ .dylib) :
    r.notices.flatMap Notice.optionsNamed = r.linkerFlags.filter (· ∈ dylibOnlyOptions) := by
  have hframeworks : ∀ p : Prop, ∀ _ : Decidable p,
      (if p then [Notice.ignoredFrameworks r.kind] else []).flatMap Notice.optionsNamed = [] := by
    intro p _
    split
    · rfl
    · rfl
  rw [notices, List.flatMap_append, hframeworks, List.nil_append, ignoredOptions, if_neg h]
  split
  · exact List.append_nil _
  · rename_i hnone
    exact (Decidable.of_not_not hnone).symm

/-- **The options that are named** in the warnings about a request, of any kind but a
    dynamic library, that passes its checks.  Linking keeps the flags of the reading; what
    is named are its options, and the values that are named like one.  These are the options
    that are left out, in their order, iff no value is named like an option. -/
theorem Toolchain.validate_names_ignored {t : Toolchain} {r : Request} {layout : Toolchain}
    {w v : World} (hkind : r.kind ≠ .dylib) (h : (t.validate r).run w = (.ok layout, v)) :
    ∃ raised, v.notices = w.notices ++ raised ∧ (∃ items, LinkerItem.Reads r.linkerFlags items) ∧
      ∀ items, LinkerItem.Reads r.linkerFlags items →
        withoutDylibOptions r.linkerFlags = items.filterMap LinkerItem.kept? ∧
        raised.flatMap Notice.optionsNamed = items.flatMap LinkerItem.named ∧
        (raised.flatMap Notice.optionsNamed = items.filterMap LinkerItem.option? ↔
          ∀ item ∈ items, ∀ value ∈ item.value?, value ∉ dylibOnlyOptions) := by
  rw [run_validate] at h
  rcases hcheck : r.check t w.files with e | _
  · rw [hcheck] at h
    exact absurd h error_ne_ok
  · rw [hcheck] at h
    refine ⟨r.notices, ?_, ⟨_, LinkerItem.reads_iff.mpr rfl⟩, fun items hreads => ?_⟩
    · rw [← show _ = v from congrArg Prod.snd h]
    · have hnamed : r.notices.flatMap Notice.optionsNamed = items.flatMap LinkerItem.named := by
        rw [Request.flatMap_optionsNamed_notices hkind, hreads.filter_eq]
      refine ⟨?_, hnamed, ?_⟩
      · rw [LinkerItem.withoutDylibOptions_eq, LinkerItem.reads_iff.mp hreads]
      · rw [hnamed]
        exact hreads.flatMap_named_eq_iff

/-- A request for a bundle, with an install name that is named like an option. -/
def valuedRequest : Request :=
  { mixedRequest with
    kind := .bundle
    inputs := [.ofString "a.rb"]
    frameworks := ["Cocoa"]
    linkerFlags := ["-install_name", "-current_version", "-dead_strip"] }

/-- The install name is named as an option that is ignored, though it is none. -/
theorem Toolchain.validate_names_ignored_value :
    valuedRequest.kind ≠ .dylib ∧
      ∃ v, (({} : Toolchain).validate valuedRequest).run mixedWorld = (.ok {}, v) ∧
        ∃ raised items, v.notices = mixedWorld.notices ++ raised ∧
          LinkerItem.Reads valuedRequest.linkerFlags items ∧
          withoutDylibOptions valuedRequest.linkerFlags = ["-dead_strip"] ∧
          raised.flatMap Notice.optionsNamed = ["-install_name", "-current_version"] ∧
          items.filterMap LinkerItem.option? = ["-install_name"] := by
  have hkind : valuedRequest.kind ≠ .dylib := nofun
  have hcheck : valuedRequest.check {} mixedWorld.files = .ok () :=
    eq_ok_of_toOption (by decide +kernel)
  have hrun : (({} : Toolchain).validate valuedRequest).run mixedWorld
      = (.ok {}, { mixedWorld with notices := mixedWorld.notices ++ valuedRequest.notices }) := by
    rw [run_validate, hcheck]
    rfl
  have hreads := LinkerItem.reads_ofFlags valuedRequest.linkerFlags
  obtain ⟨raised, hraised, -, hall⟩ := validate_names_ignored hkind hrun
  obtain ⟨hkept, hnamed, -⟩ := hall _ hreads
  exact ⟨hkind, _, hrun, raised, _, hraised, hreads, hkept.trans (by decide),
    hnamed.trans (by decide), by decide⟩

/-! ## Options put between flags -/

/-- Whole options, each with some value behind it, stand in front of, between and behind
    the flags of the first list. -/
inductive Padded : List String → List String → Prop where
  | nil : Padded [] []
  | keep (text : String) {flags padded : List String} :
      Padded flags padded → Padded (text :: flags) (text :: padded)
  | insert {name : String} (value : String) {flags padded : List String} :
      name ∈ dylibOnlyOptions → Padded flags padded → Padded flags (name :: value :: padded)

/-- A flag that is no option is kept, whatever stands behind it. -/
theorem withoutDylibOptions_cons {text : String} (h : text ∉ dylibOnlyOptions)
    (later : List String) :
    withoutDylibOptions (text :: later) = text :: withoutDylibOptions later := by
  simp [LinkerItem.withoutDylibOptions_eq, LinkerItem.ofFlags_cons h, LinkerItem.kept?]

namespace Padded

variable {flags padded flags' padded' : List String}

/-- There may be no option at all. -/
theorem refl (flags : List String) : Padded flags flags := by
  induction flags with
  | nil => exact .nil
  | cons text later ih => exact .keep text ih

theorem append (h : Padded flags padded) (h' : Padded flags' padded') :
    Padded (flags ++ flags') (padded ++ padded') := by
  induction h with
  | nil => exact h'
  | keep text _ ih => exact .keep text ih
  | insert value hname _ ih => exact .insert value hname ih

/-- What a command line asks for is options with their values, and no flag besides. -/
theorem linkerFlags (a : CommandLine.Arguments) : Padded [] a.linkerFlags := by
  have hoption : ∀ name ∈ dylibOnlyOptions, ∀ value : String,
      Padded [] (if value = "" then [] else [name, value]) := by
    intro name hname value
    split
    · exact .nil
    · exact .insert value hname .nil
  have hboth : ∀ {before behind : List String},
      Padded [] before → Padded [] behind → Padded [] (before ++ behind) :=
    fun h h' => h.append h'
  unfold CommandLine.Arguments.linkerFlags
  refine hboth (hboth ?_ ?_) ?_
  all_goals
    -- an option may not be there, or be there without a value of its own
    dsimp only
    split
    · exact hoption _ (by decide) _
    · exact .nil
    · exact .nil

/-- An option is left out with its value, so what comes behind the value is read as if
    the two were not there. -/
theorem withoutDylibOptions_eq (h : Padded flags padded)
    (hflags : ∀ text ∈ flags, text ∉ dylibOnlyOptions) : withoutDylibOptions padded = flags := by
  -- a value is never looked at, so it does not matter what it is named like
  induction h with
  | nil => rfl
  | keep text _ ih =>
      obtain ⟨htext, hlater⟩ := List.forall_mem_cons.mp hflags
      rw [withoutDylibOptions_cons htext, ih hlater]
  | insert value hname _ ih => rw [withoutDylibOptions, if_pos hname, ih hflags]

end Padded

/-- **Flags are given back** when options have been put between them, each with a value
    that may be named like an option or a flag; doing so again changes nothing.  A list
    that comes from a command line holds such options only, so nothing is kept of it. -/
theorem withoutDylibOptions_padded :
    (∀ flags padded : List String, (∀ text ∈ flags, text ∉ dylibOnlyOptions) →
      Padded flags padded → withoutDylibOptions padded = flags ∧
        withoutDylibOptions (withoutDylibOptions padded) = withoutDylibOptions padded) ∧
    ∀ a : CommandLine.Arguments, withoutDylibOptions a.linkerFlags = [] := by
  refine ⟨fun flags padded hflags hpadded => ?_, fun a => ?_⟩
  · have hkept := hpadded.withoutDylibOptions_eq hflags
    refine ⟨hkept, ?_⟩
    rw [hkept]
    exact (Padded.refl flags).withoutDylibOptions_eq hflags
  · exact (Padded.linkerFlags a).withoutDylibOptions_eq (List.forall_mem_nil _)

/-- Values that are named like options and like the flag that comes next, and an
    install name from a command line that is named like an option. -/
theorem withoutDylibOptions_padded_colliding :
    (∀ text ∈ ["-dead_strip", "-x"], text ∉ dylibOnlyOptions) ∧
      Padded ["-dead_strip", "-x"] ["-install_name", "-current_version", "-current_version",
        "-dead_strip", "-dead_strip", "-compatibility_version", "-x", "-x", "-install_name",
        "-install_name"] ∧
      withoutDylibOptions ["-install_name", "-current_version", "-current_version",
        "-dead_strip", "-dead_strip", "-compatibility_version", "-x", "-x", "-install_name",
        "-install_name"] = ["-dead_strip", "-x"] ∧
      withoutDylibOptions ({ installName := some (.value "-current_version") } :
        CommandLine.Arguments).linkerFlags = [] := by
  have hflags : ∀ text ∈ ["-dead_strip", "-x"], text ∉ dylibOnlyOptions := by decide
  have hpadded : Padded ["-dead_strip", "-x"] ["-install_name", "-current_version",
      "-current_version", "-dead_strip", "-dead_strip", "-compatibility_version", "-x", "-x",
      "-install_name", "-install_name"] :=
    .insert _ (by decide) <| .insert _ (by decide) <| .keep _ <| .insert _ (by decide) <|
      .keep _ <| .insert _ (by decide) .nil
  obtain ⟨hback, hcommandLine⟩ := withoutDylibOptions_padded
  exact ⟨hflags, hpadded, (hback _ _ hflags hpadded).1, hcommandLine _⟩

end AheadOfTime
