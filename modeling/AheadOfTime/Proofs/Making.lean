import AheadOfTime.Proofs.FirstOccurrences
import AheadOfTime.Request

/-! # Making requests

    A request is made from fields that are given one by one, and the first thing that is
    wrong with them is reported.  `Request.ofFields_eq_ok_iff` says at once what all the
    checks together let through: `Request.Makes` relates the fields to the request, and
    what is known about a request is read off from there. -/

namespace AheadOfTime

/-! ## Names of kinds and architectures -/

theorem OutputKind.ofName?_eq_some_iff {name : String} {kind : OutputKind} :
    ofName? name = some kind ↔ kind.name = name := by
  constructor
  · intro h
    have hname := List.find?_some h
    exact beq_iff_eq.mp hname
  · rintro rfl
    cases kind <;> decide

theorem OutputKind.name_injective : Function.Injective name := by
  intro a b h
  exact Option.some.inj ((ofName?_eq_some_iff.mpr h).symm.trans (ofName?_eq_some_iff.mpr rfl))

theorem OutputKind.isPerInput_iff {kind : OutputKind} :
    kind.isPerInput = true ↔ kind.name = "object" ∨ kind.name = "bundle" := by
  cases kind <;> decide

theorem Arch.ofName?_eq_some_iff {name : String} {arch : Arch} :
    ofName? name = some arch ↔ arch.name = name := by
  constructor
  · intro h
    have hname := List.find?_some h
    exact beq_iff_eq.mp hname
  · rintro rfl
    cases arch <;> decide

theorem Arch.name_injective : Function.Injective name := by
  intro a b h
  exact Option.some.inj ((ofName?_eq_some_iff.mpr h).symm.trans (ofName?_eq_some_iff.mpr rfl))

/-! ## Checks that refuse -/

section

variable {ε α β : Type}

/-- What comes of a step behind another one comes of what that one lets through. -/
theorem bind_eq_ok_iff {x : Except ε α} {f : α → Except ε β} {b : β} :
    (x >>= f) = .ok b ↔ ∃ a, x = .ok a ∧ f a = .ok b := by
  cases x with
  | error e => exact ⟨nofun, fun ⟨_, h, _⟩ => nomatch h⟩
  | ok a => exact ⟨fun h => ⟨a, rfl, h⟩, fun ⟨_, ha, h⟩ => Except.ok.inj ha ▸ h⟩

/-- What is refused if the condition holds is let through if it does not hold. -/
theorem refusing_eq_ok_iff {c : Prop} [Decidable c] {e : ε} {x : Except ε α} {a : α} :
    (if c then .error e else x) = .ok a ↔ ¬ c ∧ x = .ok a := by
  by_cases hc : c
  · rw [if_pos hc]
    exact ⟨nofun, fun h => absurd hc h.1⟩
  · rw [if_neg hc]
    exact (and_iff_right hc).symm

end

namespace Request

variable {f : RequestFields} {r : Request}

/-! ## The checks together -/

/-- The names are those of the architectures. -/
theorem archsOfNames_eq_ok_iff {names : List String} {archs : List Arch} :
    archsOfNames names = .ok archs ↔ archs.map Arch.name = names := by
  induction names generalizing archs with
  | nil =>
      rw [List.map_eq_nil_iff]
      exact ⟨fun h => (Except.ok.inj h).symm, fun h => h ▸ rfl⟩
  | cons name later ih =>
      rw [archsOfNames, List.map_eq_cons_iff]
      rcases harch : Arch.ofName? name with _ | arch
      · -- the name is refused, and no architecture has it
        refine ⟨nofun, ?_⟩
        rintro ⟨arch, _, rfl, hname, -⟩
        rw [Arch.ofName?_eq_some_iff.mpr hname] at harch
        exact nomatch harch
      · have hname := Arch.ofName?_eq_some_iff.mp harch
        show (archsOfNames later >>= fun archs' => .ok (arch :: archs')) = _ ↔ _
        rw [bind_eq_ok_iff]
        constructor
        · rintro ⟨archs', hlater, h⟩
          exact ⟨arch, archs', (Except.ok.inj h).symm, hname, ih.mp hlater⟩
        · rintro ⟨arch', archs', rfl, hname', hlater⟩
          obtain rfl := Arch.name_injective (hname'.trans hname.symm)
          exact ⟨archs', ih.mpr hlater, rfl⟩

/-- A request has the architectures that are asked for, each once; there is at least
    one. -/
theorem archs?_eq_ok_iff {names : List String} {archs : List Arch} :
    archs? names = .ok archs ↔
      ∃ asked, asked.map Arch.name = names ∧ asked ≠ [] ∧ archs = distinct asked := by
  rw [archs?, bind_eq_ok_iff]
  refine exists_congr fun asked => and_congr archsOfNames_eq_ok_iff ?_
  cases asked with
  -- that there are none is found out behind the names
  | nil => exact ⟨nofun, fun h => absurd rfl h.1⟩
  | cons arch asked =>
      constructor
      · intro h
        exact ⟨List.cons_ne_nil _ _, (Except.ok.inj h).symm⟩
      · rintro ⟨-, rfl⟩
        rfl

theorem target_eq_ok_iff {kind : OutputKind} {archs : List Arch} :
    target f = .ok (kind, archs) ↔
      kind.name = f.kind ∧ archs? f.archs = .ok archs ∧ f.inputs ≠ [] := by
  rw [← OutputKind.ofName?_eq_some_iff, target]
  rcases OutputKind.ofName? f.kind with _ | kind'
  · exact ⟨nofun, nofun⟩
  · show (archs? f.archs >>= fun archs' =>
      if f.inputs = [] then .error .noInputs else .ok (kind', archs')) = _ ↔ _
    simp only [bind_eq_ok_iff, refusing_eq_ok_iff]
    constructor
    · rintro ⟨archs', harchs, hinputs, h⟩
      obtain ⟨rfl, rfl⟩ := Prod.mk.inj (Except.ok.inj h)
      exact ⟨rfl, harchs, hinputs⟩
    · rintro ⟨hkind, harchs, hinputs⟩
      obtain rfl := Option.some.inj hkind
      exact ⟨archs, harchs, hinputs, rfl⟩

/-- The request has what the fields ask for, and that can be built. -/
structure Makes (f : RequestFields) (r : Request) : Prop where
  kind : r.kind.name = f.kind
  archs : archs? f.archs = .ok r.archs
  inputs : r.inputs = f.inputs
  output : r.output = f.output
  sdk : r.sdk = f.sdk
  frameworks : r.frameworks = f.frameworks
  linkerFlags : r.linkerFlags = f.linkerFlags
  static : r.static = f.static
  verbose : r.verbose = f.verbose
  jobs : (r.jobs : Int) = f.jobs
  hasInputs : r.inputs ≠ []
  hasJobs : 1 ≤ r.jobs
  staticExecutable : r.static = true → r.kind = .executable
  oneOutput : r.kind.isPerInput = true → r.output.isSome = true → r.inputs.length = 1

/-- What is refused once the kind and the architectures are known. -/
theorem ofFields_of_target {kind : OutputKind} {archs : List Arch}
    (h : target f = .ok (kind, archs)) : ofFields f =
      if f.jobs < 1 then .error (.tooFewJobs f.jobs)
      else if f.static = true ∧ kind ≠ .executable then .error (.staticNeedsExecutable kind)
      else if kind.isPerInput = true ∧ f.output.isSome = true ∧ f.inputs.length > 1 then
        .error (.oneOutputForMany kind f.inputs.length)
      else .ok ⟨kind, f.inputs, f.output, archs, f.sdk, f.frameworks, f.linkerFlags, f.static,
        f.verbose, f.jobs.toNat⟩ := by
  rw [ofFields, h]
  rfl

/-- **What comes of fields**, by all the checks together. -/
theorem ofFields_eq_ok_iff : ofFields f = .ok r ↔ Makes f r := by
  constructor
  · intro h
    obtain ⟨⟨kind, archs⟩, htarget, -⟩ := bind_eq_ok_iff.mp h
    obtain ⟨hkind, harchs, hinputs⟩ := target_eq_ok_iff.mp htarget
    simp only [ofFields_of_target htarget, refusing_eq_ok_iff] at h
    obtain ⟨hjobs, hstatic, houtput, h⟩ := h
    obtain rfl := Except.ok.inj h
    refine ⟨hkind, harchs, rfl, rfl, rfl, rfl, rfl, rfl, rfl, ?_, hinputs, ?_, ?_, ?_⟩
    -- the fields may ask for a negative number of jobs, a request cannot hold one
    · exact Int.toNat_of_nonneg (by omega)
    · show 1 ≤ f.jobs.toNat
      omega
    · intro h
      exact Decidable.of_not_not fun hne => hstatic ⟨h, hne⟩
    · intro hmany hsome
      have hlength : ¬ f.inputs.length > 1 := fun h => houtput ⟨hmany, hsome, h⟩
      have hpos := List.length_pos_iff.mpr hinputs
      show f.inputs.length = 1
      omega
  · intro h
    have htarget : target f = .ok (r.kind, r.archs) :=
      target_eq_ok_iff.mpr ⟨h.kind, h.archs, h.inputs ▸ h.hasInputs⟩
    simp only [ofFields_of_target htarget, refusing_eq_ok_iff]
    -- each check in turn lets the fields through
    refine ⟨?_, ?_, ?_, ?_⟩
    · have := h.jobs
      have := h.hasJobs
      omega
    · rintro ⟨hstatic, hkind⟩
      exact hkind (h.staticExecutable (h.static.trans hstatic))
    · rintro ⟨hmany, hsome, hlength⟩
      rw [← h.inputs, h.oneOutput hmany (h.output ▸ hsome)] at hlength
      exact absurd hlength (by decide)
    · rw [← h.inputs, ← h.output, ← h.sdk, ← h.frameworks, ← h.linkerFlags, ← h.static,
        ← h.verbose, ← h.jobs]
      rfl

/-- What is known of the architectures: each is there once, they are those that are asked
    for, and they stand in the order in which they are first asked for. -/
theorem Makes.archs_order (h : Makes f r) : r.archs ≠ [] ∧ r.archs.Nodup ∧
    (∀ name, name ∈ r.archs.map Arch.name ↔ name ∈ f.archs) ∧
    r.archs.Pairwise fun a b => f.archs.idxOf a.name < f.archs.idxOf b.name := by
  obtain ⟨asked, hnames, hne, harchs⟩ := archs?_eq_ok_iff.mp h.archs
  rw [harchs, ← hnames]
  refine ⟨?_, nodup_distinct asked, fun name => ?_, ?_⟩
  · obtain ⟨arch, asked, rfl⟩ := List.exists_cons_of_ne_nil hne
    exact List.cons_ne_nil _ _
  · simp only [List.mem_map, mem_distinct]
  · simpa only [idxOf_map_of_injective Arch.name_injective] using pairwise_idxOf_distinct asked

/-- **A request is made again** of its own fields. -/
theorem Makes.again (h : Makes f r) : Makes r.fields r where
  kind := rfl
  archs := by
    obtain ⟨hne, hnodup, -⟩ := h.archs_order
    exact archs?_eq_ok_iff.mpr ⟨r.archs, rfl, hne, (distinct_of_nodup hnodup).symm⟩
  inputs := rfl
  output := rfl
  sdk := rfl
  frameworks := rfl
  linkerFlags := rfl
  static := rfl
  verbose := rfl
  jobs := rfl
  hasInputs := h.hasInputs
  hasJobs := h.hasJobs
  staticExecutable := h.staticExecutable
  oneOutput := h.oneOutput

end Request

end AheadOfTime
