import AheadOfTime.Proofs.Lookup
import AheadOfTime.Proofs.Making
import Mathlib.Data.Set.List

/-! # Which requests there are

    A request can be made of fields just when they are coherent, which is said in terms of
    the fields alone.

    The paths among the fields may be written in any way (`WrittenFields`).  A request
    holds them as they have been read, and its architectures in the order in which they
    are first asked for; so its own fields are in order already, and making a request of
    them gives the same one.  `Request.ofFields_makes` puts this together, also for
    requests that are made from flags. -/

namespace AheadOfTime

/-! ## Fields that a request can be made of -/

/-- What the fields ask for can be built. -/
structure RequestFields.Coherent (f : RequestFields) : Prop where
  /-- There is such a kind. -/
  kind : f.kind ∈ ["object", "bundle", "dylib", "executable"]
  /-- There are such architectures. -/
  archs : ∀ name ∈ f.archs, name ∈ ["i386", "x86_64", "arm64"]
  someArch : f.archs ≠ []
  someInput : f.inputs ≠ []
  jobs : 1 ≤ f.jobs
  /-- Only an executable is static. -/
  static : f.static = true → f.kind = "executable"
  /-- Where every input has an output of its own, one that is named is for one input. -/
  output : f.output ≠ none → f.kind = "object" ∨ f.kind = "bundle" → f.inputs.length = 1

/-- The names of the kinds are these four. -/
theorem OutputKind.exists_name_iff {name : String} :
    (∃ kind : OutputKind, kind.name = name) ↔
      name ∈ ["object", "bundle", "dylib", "executable"] := by
  constructor
  · rintro ⟨kind, rfl⟩
    cases kind <;> decide
  · intro h
    have hmem : name ∈ all.map OutputKind.name := h
    obtain ⟨kind, -, hname⟩ := List.mem_map.mp hmem
    exact ⟨kind, hname⟩

/-- The names of the architectures are these three. -/
theorem Arch.exists_name_iff {name : String} :
    (∃ arch : Arch, arch.name = name) ↔ name ∈ ["i386", "x86_64", "arm64"] := by
  constructor
  · rintro ⟨arch, rfl⟩
    cases arch <;> decide
  · intro h
    have hmem : name ∈ all.map Arch.name := h
    obtain ⟨arch, -, hname⟩ := List.mem_map.mp hmem
    exact ⟨arch, hname⟩

/-- Fields that a request is made of are coherent. -/
theorem Request.Makes.coherent {f : RequestFields} {r : Request} (h : Makes f r) :
    f.Coherent := by
  obtain ⟨hne, -, hasked, -⟩ := h.archs_order
  refine ⟨OutputKind.exists_name_iff.mp ⟨r.kind, h.kind⟩, fun name hname => ?_, ?_,
    h.inputs ▸ h.hasInputs, ?_, ?_, ?_⟩
  · -- a name that was asked for is that of an architecture
    obtain ⟨arch, -, harch⟩ := List.mem_map.mp ((hasked name).mpr hname)
    exact Arch.exists_name_iff.mp ⟨arch, harch⟩
  · obtain ⟨arch, harch⟩ := List.exists_mem_of_ne_nil _ hne
    exact List.ne_nil_of_mem ((hasked arch.name).mp (List.mem_map_of_mem harch))
  · have := h.jobs
    have := h.hasJobs
    omega
  · intro hstatic
    rw [← h.kind, h.staticExecutable (h.static.trans hstatic)]
    rfl
  · intro houtput hkind
    rw [← h.inputs]
    refine h.oneOutput ?_ (by rwa [Option.isSome_iff_ne_none, h.output])
    rwa [OutputKind.isPerInput_iff, h.kind]

/-- **Coherent fields** are enough for a request. -/
theorem RequestFields.Coherent.exists_makes {f : RequestFields} (h : f.Coherent) :
    ∃ r, Request.Makes f r := by
  obtain ⟨kind, hkind⟩ := OutputKind.exists_name_iff.mpr h.kind
  obtain ⟨asked, hasked⟩ : f.archs ∈ Set.range (List.map Arch.name) := by
    rw [Set.range_list_map]
    exact fun name hname => Arch.exists_name_iff.mpr (h.archs name hname)
  have hne : asked ≠ [] := by
    rintro rfl
    exact h.someArch hasked.symm
  have hjobs := h.jobs
  -- the request is written down, and what is left to show are the checks
  refine ⟨⟨kind, f.inputs, f.output, distinct asked, f.sdk, f.frameworks, f.linkerFlags,
    f.static, f.verbose, f.jobs.toNat⟩, hkind,
    Request.archs?_eq_ok_iff.mpr ⟨asked, hasked, hne, rfl⟩,
    rfl, rfl, rfl, rfl, rfl, rfl, rfl, Int.toNat_of_nonneg (by omega), h.someInput, ?_, ?_, ?_⟩
  · show 1 ≤ f.jobs.toNat
    omega
  · intro hstatic
    exact OutputKind.name_injective (hkind.trans (h.static hstatic))
  · intro hmany hsome
    refine h.output (Option.isSome_iff_ne_none.mp hsome) ?_
    rw [← hkind]
    exact OutputKind.isPerInput_iff.mp hmany

/-- **A request can be made** of coherent fields only, and of all of them. -/
theorem Request.exists_makes_iff {f : RequestFields} : (∃ r, Makes f r) ↔ f.Coherent :=
  ⟨fun ⟨_, h⟩ => h.coherent, fun h => h.exists_makes⟩

/-! ## Paths as they are written -/

/-- The fields of a request, with its paths as they are written. -/
structure WrittenFields where
  kind : String
  inputs : List String
  output : Option String := none
  archs : List String := ["x86_64"]
  sdk : Option String := none
  frameworks : List String := []
  linkerFlags : List String := []
  static : Bool := false
  verbose : Bool := false
  jobs : Int := 1
  deriving DecidableEq, Repr

/-- The fields with their paths read. -/
def WrittenFields.read (f : WrittenFields) : RequestFields where
  kind := f.kind
  inputs := f.inputs.map Path.ofString
  output := f.output.map Path.ofString
  archs := f.archs
  sdk := f.sdk.map Path.ofString
  frameworks := f.frameworks
  linkerFlags := f.linkerFlags
  static := f.static
  verbose := f.verbose
  jobs := f.jobs

/-- The fields with their paths written. -/
def RequestFields.written (f : RequestFields) : WrittenFields where
  kind := f.kind
  inputs := f.inputs.map Path.toString
  output := f.output.map Path.toString
  archs := f.archs
  sdk := f.sdk.map Path.toString
  frameworks := f.frameworks
  linkerFlags := f.linkerFlags
  static := f.static
  verbose := f.verbose
  jobs := f.jobs

/-- All paths among the fields. -/
def RequestFields.paths (f : RequestFields) : List Path :=
  f.inputs ++ f.output.toList ++ f.sdk.toList

/-- Every path among the fields is one that was read. -/
theorem WrittenFields.isRead_of_mem_paths {f : WrittenFields} {p : Path}
    (h : p ∈ f.read.paths) : p.IsRead := by
  have htext : ∃ text, Path.ofString text = p := by
    simp only [RequestFields.paths, read, List.mem_append, List.mem_map, Option.mem_toList,
      Option.map_eq_some_iff] at h
    rcases h with (⟨text, -, h⟩ | ⟨text, -, h⟩) | ⟨text, -, h⟩
    · exact ⟨text, h⟩
    · exact ⟨text, h⟩
    · exact ⟨text, h⟩
  obtain ⟨text, rfl⟩ := htext
  exact Path.isRead_ofString text

/-- Paths that have been read are read again from their texts. -/
theorem RequestFields.read_written {f : RequestFields} (h : ∀ p ∈ f.paths, p.IsRead) :
    f.written.read = f := by
  simp only [paths, List.forall_mem_append] at h
  obtain ⟨⟨hinputs, houtput⟩, hsdk⟩ := h
  have hlist : (f.inputs.map Path.toString).map Path.ofString = f.inputs := by
    rw [List.map_map]
    exact (List.map_congr_left fun p hp => Path.ofString_toString (hinputs p hp)).trans
      (List.map_id _)
  have hoption : ∀ path : Option Path, (∀ p ∈ path.toList, p.IsRead) →
      (path.map Path.toString).map Path.ofString = path := by
    intro path hpath
    cases path with
    | none => rfl
    | some p => exact congrArg some (Path.ofString_toString (hpath p List.mem_cons_self))
  rw [written, WrittenFields.read, hlist, hoption _ houtput, hoption _ hsdk]

namespace Request

/-- How a request has come of fields. -/
structure IsMadeOf (r : Request) (f : WrittenFields) : Prop where
  kind : r.kind.name = f.kind
  inputs : r.inputs = f.inputs.map Path.ofString
  output : r.output = f.output.map Path.ofString
  sdk : r.sdk = f.sdk.map Path.ofString
  frameworks : r.frameworks = f.frameworks
  linkerFlags : r.linkerFlags = f.linkerFlags
  static : r.static = f.static
  verbose : r.verbose = f.verbose
  jobs : (r.jobs : Int) = f.jobs
  /-- No architecture is there twice. -/
  archsNodup : r.archs.Nodup
  /-- The architectures are those that are asked for. -/
  archsAsked : ∀ name, name ∈ r.archs.map Arch.name ↔ name ∈ f.archs
  /-- The architectures are in the order in which they are first asked for. -/
  archsOrder : r.archs.Pairwise fun a b => f.archs.idxOf a.name < f.archs.idxOf b.name
  /-- The names in a path are names, and the path is read again from its text. -/
  paths : ∀ p ∈ r.fields.paths, p.IsRead ∧ Path.ofString p.toString = p
  /-- The request is made again of its own fields. -/
  again : ofFields r.fields = .ok r
  /-- The request is made again of its own fields, when its paths have been written. -/
  againWritten : ofFields r.fields.written.read = .ok r

/-- What is made of the fields as they are read is made of the fields as they are
    written. -/
theorem Makes.isMadeOf {f : WrittenFields} {r : Request} (h : Makes f.read r) : r.IsMadeOf f := by
  obtain ⟨-, hnodup, hasked, horder⟩ := h.archs_order
  have hpaths : r.fields.paths = f.read.paths := by
    show r.inputs ++ r.output.toList ++ r.sdk.toList = _
    rw [h.inputs, h.output, h.sdk]
    rfl
  have hread : ∀ p ∈ r.fields.paths, p.IsRead := by
    rw [hpaths]
    exact fun p hp => WrittenFields.isRead_of_mem_paths hp
  have hagain := ofFields_eq_ok_iff.mpr h.again
  refine ⟨h.kind, h.inputs, h.output, h.sdk, h.frameworks, h.linkerFlags, h.static, h.verbose,
    h.jobs, hnodup, hasked, horder, fun p hp => ⟨hread p hp, Path.ofString_toString (hread p hp)⟩,
    hagain, ?_⟩
  rw [RequestFields.read_written hread]
  exact hagain

end Request

/-! ## Requests from flags -/

/-- Of flags that do not exclude each other one at most is set, and it selects the kind. -/
theorem KindFlags.kind_eq_iff {flags : KindFlags} (h : flags.conflict? = none) :
    (flags.kind = .object ↔ flags.dontLink = true) ∧ (flags.kind = .bundle ↔ flags.bundle = true) ∧
      (flags.kind = .dylib ↔ flags.dylib = true) ∧
      (flags.kind = .executable ↔
        flags.dontLink = false ∧ flags.bundle = false ∧ flags.dylib = false) := by
  obtain ⟨dontLink, bundle, dylib, static⟩ := flags
  revert dontLink bundle dylib static
  decide

/-- The fields with kind and `static` as the flags choose them. -/
def WrittenFields.chosen (f : WrittenFields) (flags : KindFlags) : WrittenFields :=
  { f with kind := flags.kind.name, static := flags.static }

/-- **Flags for a kind** make a request if they do not conflict and the fields with
    their kind make it. -/
theorem Request.ofFlags_eq_ok_iff {flags : KindFlags} {f : WrittenFields} {r : Request} :
    ofFlags flags f.read = .ok r ↔ flags.conflict? = none ∧ Makes (f.chosen flags).read r := by
  rw [← ofFields_eq_ok_iff]
  unfold ofFlags KindFlags.applied
  rcases flags.conflict? with _ | ⟨first, second⟩
  · exact (and_iff_right rfl).symm
  · exact ⟨nofun, nofun⟩

/-- **Which requests there are.**  A request is made of coherent fields, and of no other
    ones.  Every request has its architectures once each, in the order in which they were
    first asked for, and its paths in order, and is made again of its own fields.  The
    same holds if it is made from flags, and then its kind is the one that they select. -/
theorem Request.ofFields_makes :
    (∀ f : WrittenFields, (∃ r, ofFields f.read = .ok r) ↔ f.read.Coherent) ∧
    (∀ (f : WrittenFields) (r : Request), ofFields f.read = .ok r → r.IsMadeOf f) ∧
    ∀ (flags : KindFlags) (f : WrittenFields) (r : Request), ofFlags flags f.read = .ok r →
      (f.chosen flags).read.Coherent ∧ r.IsMadeOf (f.chosen flags) ∧
        (r.kind = .object ↔ flags.dontLink = true) ∧ (r.kind = .bundle ↔ flags.bundle = true) ∧
        (r.kind = .dylib ↔ flags.dylib = true) ∧
        (r.kind = .executable ↔
          flags.dontLink = false ∧ flags.bundle = false ∧ flags.dylib = false) := by
  refine ⟨fun f => ?_, fun f r h => ?_, fun flags f r h => ?_⟩
  · simp only [ofFields_eq_ok_iff]
    exact exists_makes_iff
  · exact (ofFields_eq_ok_iff.mp h).isMadeOf
  · obtain ⟨hconflict, hmakes⟩ := ofFlags_eq_ok_iff.mp h
    have hkind : r.kind = flags.kind := OutputKind.name_injective hmakes.kind
    rw [hkind]
    exact ⟨exists_makes_iff.mp ⟨r, hmakes⟩, hmakes.isMadeOf, flags.kind_eq_iff hconflict⟩

/-- Fields of a static executable, with an architecture that is asked for twice and paths
    that are not in order. -/
def untidyFields : WrittenFields where
  kind := "executable"
  inputs := ["src//./a.rb", "///lib/b.o"]
  output := some "out/"
  archs := ["x86_64", "i386", "x86_64"]
  sdk := some "//sdk"
  static := true
  jobs := 4

/-- The request that is made of them. -/
def tidyRequest : Request where
  kind := .executable
  inputs := [⟨.relative, ["src", "a.rb"]⟩, ⟨.root, ["lib", "b.o"]⟩]
  output := some ⟨.relative, ["out"]⟩
  archs := [.x86_64, .i386]
  sdk := some ⟨.doubleRoot, ["sdk"]⟩
  frameworks := []
  linkerFlags := []
  static := true
  verbose := false
  jobs := 4

theorem Request.ofFields_makes_tidy :
    ofFields untidyFields.read = .ok tidyRequest ∧ tidyRequest.IsMadeOf untidyFields ∧
      untidyFields.read.Coherent ∧
      ofFlags { static := true } untidyFields.read = .ok tidyRequest ∧
      ¬ ∃ r, ofFields (WrittenFields.read { untidyFields with kind := "object" }) = .ok r := by
  have hmade : ofFields untidyFields.read = .ok tidyRequest :=
    eq_ok_of_toOption (by decide +kernel)
  have hflags : ofFlags { static := true } untidyFields.read = .ok tidyRequest :=
    eq_ok_of_toOption (by decide +kernel)
  obtain ⟨hiff, hall, hchosen⟩ := ofFields_makes
  exact ⟨hmade, hall _ _ hmade, (hchosen _ _ _ hflags).1, hflags,
    fun hobject => nomatch ((hiff _).mp hobject).static rfl⟩

end AheadOfTime
