import AheadOfTime.Proofs.Course
import AheadOfTime.Proofs.Plan

/-! # What is built, and what is refused

    A request is checked before anything is done.  The checks are conditions that
    the request and the files have to meet, in a fixed order
    (`Request.conditions`), and the first one that is not met is the reason of the
    refusal.  `run_admits` says that what passes is exactly what is
    `Request.Admissible`, and that whatever is refused, or lacks its tools, leaves
    everything as it was.

    A look at the files may itself end in a fault.  A condition with such a look
    is not met, and the fault is the reason. -/

namespace AheadOfTime

/-! ## Conditions -/

/-- A condition of a request: what a look at the files says, and the problem if
    that is no. -/
structure Condition where
  answer : Except Fault Bool
  problem : Problem

namespace Condition

/-- The look at the files says yes. -/
def Holds (c : Condition) : Prop := c.answer = .ok true

/-- Why a condition does not hold: the fault of the look, or else the problem. -/
def failure (c : Condition) : Failure :=
  match c.answer with
  | .error f => .fault f
  | .ok _ => .problem c.problem

/-- The failure of the first condition that does not hold. -/
def settle : List Condition → Except Failure Unit
  | [] => .ok ()
  | c :: later => match c.answer with
    | .ok true => settle later
    | _ => .error c.failure

/-- A condition that holds leaves it to those behind it. -/
theorem settle_cons_of_holds {c : Condition} (h : c.Holds) (later : List Condition) :
    settle (c :: later) = settle later := by
  rw [settle, show c.answer = .ok true from h]

/-- A condition that does not hold has the say. -/
theorem settle_cons_of_not {c : Condition} (h : ¬ c.Holds) (later : List Condition) :
    settle (c :: later) = .error c.failure := by
  unfold Holds at h
  rw [settle]
  split
  · rename_i hyes
    exact absurd hyes h
  · rfl

/-- Conditions are settled list by list. -/
theorem settle_append (cs ds : List Condition) :
    settle (cs ++ ds) = settle cs >>= fun _ => settle ds := by
  induction cs with
  | nil => rfl
  | cons c later ih =>
      rw [List.cons_append]
      by_cases h : c.Holds
      · rw [settle_cons_of_holds h, settle_cons_of_holds h, ih]
      · rw [settle_cons_of_not h, settle_cons_of_not h]
        rfl

/-- **Nothing is objected** exactly if all conditions hold. -/
theorem settle_eq_ok_iff (cs : List Condition) : settle cs = .ok () ↔ ∀ c ∈ cs, c.Holds := by
  induction cs with
  | nil => simp [settle]
  | cons c later ih =>
      rw [List.forall_mem_cons]
      by_cases h : c.Holds
      · simp [settle_cons_of_holds h, h, ih]
      · simp [settle_cons_of_not h, h]

/-- **The first condition** that does not hold is the one that is reported. -/
theorem settle_eq_error_iff (cs : List Condition) (e : Failure) : settle cs = .error e ↔
    ∃ before c after, cs = before ++ c :: after ∧ (∀ c' ∈ before, c'.Holds) ∧ ¬ c.Holds ∧
      c.failure = e := by
  induction cs with
  | nil => simp [settle]
  | cons c later ih =>
      by_cases h : c.Holds
      · rw [settle_cons_of_holds h, ih]
        constructor
        · rintro ⟨before, c', after, rfl, hbefore, hc', rfl⟩
          exact ⟨c :: before, c', after, rfl, List.forall_mem_cons.mpr ⟨h, hbefore⟩, hc', rfl⟩
        · rintro ⟨before, c', after, heq, hbefore, hc', rfl⟩
          cases before with
          | nil => exact absurd ((List.cons.inj heq).1 ▸ h) hc'
          | cons _ before =>
              exact ⟨before, c', after, (List.cons.inj heq).2,
                (List.forall_mem_cons.mp hbefore).2, hc', rfl⟩
      · rw [settle_cons_of_not h]
        constructor
        · intro he
          exact ⟨[], c, later, rfl, List.forall_mem_nil _, h, Except.error.inj he⟩
        · rintro ⟨before, c', after, heq, hbefore, -, rfl⟩
          -- no condition stands before the first
          cases before with
          | nil => rw [(List.cons.inj heq).1]
          | cons _ before =>
              rw [(List.cons.inj heq).1] at h
              exact absurd (hbefore _ List.mem_cons_self) h

/-- A check that is one condition. -/
theorem settle_singleton (answer : Except Fault Bool) (p : Problem) :
    settle [⟨answer, p⟩] = (do
      if !(← Request.looked answer) then throw (.problem p)) := by
  rcases answer with f | _ | _ <;> rfl

end Condition

/-! ## The conditions of a request -/

namespace Request

/-- The SDK is a directory. -/
def sdkCondition (files : FileTree) (sdk : Path) : Condition :=
  ⟨files.isDirectory? sdk, .sdkMissing sdk⟩

/-- The static library is where the request's layout has it. -/
def libraryCondition (r : Request) (t : Toolchain) (files : FileTree) : Condition :=
  ⟨files.exists? (r.layout t).staticLibraryPath,
    .staticLibraryMissing (r.layout t).staticLibraryPath⟩

/-- There is an output. -/
def outputCondition (r : Request) : Condition := ⟨.ok r.output.isSome, .outputRequired⟩

/-- The input is a regular file, and then, of an allowed extension. -/
def inputConditions (r : Request) (t : Toolchain) (files : FileTree) (input : Path) :
    List Condition :=
  [⟨files.isFile? input, .unreadableInput input⟩,
    ⟨.ok (decide (input.extension ∈ r.allowedExtensions t)),
      .unsupportedInput input r.kind (r.allowedExtensions t)⟩]

/-- The input is no dynamic library. -/
def bodyCondition (t : Toolchain) (first : Path) : Condition :=
  ⟨.ok (decide (first.extension ∉ t.libraryExtensions)), .libraryAsProgramBody first⟩

/-- All the conditions of a request, in the order in which they are checked. -/
def conditions (r : Request) (t : Toolchain) (files : FileTree) : List Condition :=
  r.sdk.toList.map (sdkCondition files)
    ++ (if r.static then [r.libraryCondition t files] else [])
    ++ (if r.kind = .dylib then [r.outputCondition] else [])
    ++ r.inputs.flatMap (r.inputConditions t files)
    ++ (if r.kind = .executable then r.inputs.head?.toList.map (bodyCondition t) else [])

/-- What a request and the files have to be for the request to be built. -/
structure Admissible (r : Request) (t : Toolchain) (files : FileTree) : Prop where
  /-- The SDK, if there is one, is a directory. -/
  sdk : ∀ sdk, r.sdk = some sdk → files.isDirectory? sdk = .ok true
  /-- What is static finds its library, below the SDK if there is one. -/
  library : r.static = true → files.exists? (r.layout t).staticLibraryPath = .ok true
  /-- A dynamic library has an output. -/
  output : r.kind = .dylib → r.output ≠ none
  /-- Every input is a regular file. -/
  readable : ∀ input ∈ r.inputs, files.isFile? input = .ok true
  /-- Every input is a source, or else an object or a library that is linked. -/
  supported : ∀ input ∈ r.inputs, input.extension = t.sourceExtension ∨
    (r.kind = .dylib ∨ r.kind = .executable) ∧
      (input.extension = t.objectExtension ∨ input.extension ∈ t.libraryExtensions)
  /-- An executable does not start with a dynamic library. -/
  body : r.kind = .executable → ∀ first, r.inputs.head? = some first →
    first.extension ∉ t.libraryExtensions

theorem libraryExtensions_layout (r : Request) (t : Toolchain) :
    (r.layout t).libraryExtensions = t.libraryExtensions := by
  unfold layout
  cases r.sdk <;> rfl

/-- Which extensions a request allows. -/
theorem mem_allowedExtensions (r : Request) (t : Toolchain) (extension : String) :
    extension ∈ r.allowedExtensions t ↔ extension = t.sourceExtension ∨
      (r.kind = .dylib ∨ r.kind = .executable) ∧
        (extension = t.objectExtension ∨ extension ∈ t.libraryExtensions) := by
  unfold allowedExtensions
  cases r.kind <;> simp [OutputKind.isPerInput]

/-! ### The checks, one by one -/

/-- The SDK is checked by its condition, if one is asked for. -/
theorem checkSdk_eq (r : Request) (files : FileTree) :
    r.checkSdk files = Condition.settle (r.sdk.toList.map (sdkCondition files)) := by
  unfold checkSdk
  cases r.sdk with
  | none => rfl
  | some sdk => exact (Condition.settle_singleton _ _).symm

/-- The library for a static link is checked by its condition, if one is asked for. -/
theorem checkStatic_eq (r : Request) (t : Toolchain) (files : FileTree) :
    r.checkStatic t files
      = Condition.settle (if r.static then [r.libraryCondition t files] else []) := by
  unfold checkStatic
  cases r.static with
  | false => rfl
  | true => exact (Condition.settle_singleton _ _).symm

/-- A dynamic library has to have an output. -/
theorem checkOutput_eq (r : Request) :
    r.checkOutput = Condition.settle (if r.kind = .dylib then [r.outputCondition] else []) := by
  unfold checkOutput outputCondition
  by_cases hkind : r.kind = .dylib
  · rw [if_pos hkind]
    cases r.output with
    | none => rw [if_pos ⟨hkind, rfl⟩]; rfl
    | some output => rw [if_neg fun h => nomatch h.2]; rfl
  · rw [if_neg hkind, if_neg fun h => hkind h.1]
    rfl

/-- One input is checked by its conditions. -/
theorem checkInput_eq (r : Request) (t : Toolchain) (files : FileTree) (input : Path) :
    r.checkInput t files input = Condition.settle (r.inputConditions t files input) := by
  unfold checkInput inputConditions looked
  rcases files.isFile? input with f | _ | _
  · rfl
  · rfl
  · by_cases hallowed : input.extension ∈ r.allowedExtensions t
    · rw [if_neg (not_not_intro hallowed), decide_eq_true hallowed]
      rfl
    · rw [if_pos hallowed, decide_eq_false hallowed]
      rfl

/-- All inputs are checked by their conditions, in their order. -/
theorem checkInputs_eq (r : Request) (t : Toolchain) (files : FileTree) (inputs : List Path) :
    r.checkInputs t files inputs
      = Condition.settle (inputs.flatMap (r.inputConditions t files)) := by
  induction inputs with
  | nil => rfl
  | cons input later ih =>
      rw [checkInputs, checkInput_eq, ih, List.flatMap_cons, Condition.settle_append]

/-- The body of a program is checked by the condition on its first input. -/
theorem checkProgramBody_eq (r : Request) (t : Toolchain) : r.checkProgramBody t
    = Condition.settle
        (if r.kind = .executable then r.inputs.head?.toList.map (bodyCondition t) else []) := by
  unfold checkProgramBody bodyCondition
  rw [r.libraryExtensions_layout t]
  by_cases hkind : r.kind = .executable
  · rw [if_pos hkind]
    cases r.inputs.head? with
    | none => rfl
    | some first =>
        by_cases hlibrary : first.extension ∈ t.libraryExtensions
        · simp [hkind, hlibrary, Condition.settle]
          rfl
        · simp [hkind, hlibrary, Condition.settle]
          rfl
  · rw [if_neg hkind]
    cases r.inputs.head? with
    | none => rfl
    | some first => simp [hkind, Condition.settle]; rfl

/-- **The checks of a request** settle its conditions. -/
theorem check_eq (r : Request) (t : Toolchain) (files : FileTree) :
    r.check t files = Condition.settle (r.conditions t files) := by
  unfold check conditions
  simp only [checkSdk_eq, checkStatic_eq, checkOutput_eq, checkInputs_eq, checkProgramBody_eq,
    Condition.settle_append, bind_assoc]

/-- **What is admissible** is what meets all the conditions. -/
theorem admissible_iff (r : Request) (t : Toolchain) (files : FileTree) :
    r.Admissible t files ↔ ∀ c ∈ r.conditions t files, c.Holds := by
  -- what each group of conditions asks for
  have hsdk : (∀ c ∈ r.sdk.toList.map (sdkCondition files), c.Holds) ↔
      ∀ sdk, r.sdk = some sdk → files.isDirectory? sdk = .ok true := by
    simp [sdkCondition, Condition.Holds]
  have hlibrary : (∀ c ∈ if r.static then [r.libraryCondition t files] else [], c.Holds) ↔
      (r.static = true → files.exists? (r.layout t).staticLibraryPath = .ok true) := by
    cases r.static <;> simp [libraryCondition, Condition.Holds]
  have houtput : (∀ c ∈ if r.kind = .dylib then [r.outputCondition] else [], c.Holds) ↔
      (r.kind = .dylib → r.output ≠ none) := by
    by_cases hkind : r.kind = .dylib <;>
      simp [hkind, outputCondition, Condition.Holds, Option.isSome_iff_ne_none]
  have hinputs : (∀ c ∈ r.inputs.flatMap (r.inputConditions t files), c.Holds) ↔
      ∀ input ∈ r.inputs, files.isFile? input = .ok true ∧
        input.extension ∈ r.allowedExtensions t := by
    rw [List.forall_mem_flatMap]
    simp [inputConditions, Condition.Holds]
  have hbody : (∀ c ∈ if r.kind = .executable then
        r.inputs.head?.toList.map (bodyCondition t) else [], c.Holds) ↔
      (r.kind = .executable → ∀ first, r.inputs.head? = some first →
        first.extension ∉ t.libraryExtensions) := by
    by_cases hkind : r.kind = .executable <;> simp [hkind, bodyCondition, Condition.Holds]
  unfold conditions
  simp only [List.forall_mem_append, hsdk, hlibrary, houtput, hinputs, hbody,
    r.mem_allowedExtensions t]
  constructor
  · intro h
    exact ⟨⟨⟨⟨h.sdk, h.library⟩, h.output⟩, fun input hin =>
      ⟨h.readable input hin, h.supported input hin⟩⟩, h.body⟩
  · rintro ⟨⟨⟨⟨hsdk, hlibrary⟩, houtput⟩, hinputs⟩, hbody⟩
    exact ⟨hsdk, hlibrary, houtput, fun input hin => (hinputs input hin).1,
      fun input hin => (hinputs input hin).2, hbody⟩

end Request

/-! ## Runs -/

/-- A run that does not get to its work has come out as what it begins with. -/
theorem Builder.run_of_furnish_error {b : Builder} {r : Request} {w v : World} {e : Failure}
    (h : (b.furnish r).run w = (.error e, v)) : (b.run r).run w = (.error e, v) := by
  rw [run_eq, run_bind_error h]

/-- **What is built, and what is refused.**  A request gets past validation
    exactly if it is admissible.  Otherwise the run fails as the first condition
    does that is not met, and leaves the world as it was; and if the tools are not
    found, it leaves the world as it was but for the warnings about options that
    have no effect. -/
theorem run_admits (b : Builder) (r : Request) (w : World) :
    ((∃ v, (b.toolchain.validate r).run w = (.ok (r.layout b.toolchain), v)) ↔
      r.Admissible b.toolchain w.files) ∧
    (¬ r.Admissible b.toolchain w.files → ∃ before c after,
      r.conditions b.toolchain w.files = before ++ c :: after ∧
      (∀ c' ∈ before, c'.Holds) ∧ ¬ c.Holds ∧ (b.run r).run w = (.error c.failure, w)) ∧
    (r.Admissible b.toolchain w.files → ∀ e, b.locator.find b.toolchain w.files = .error e →
      (b.run r).run w = (.error e, { w with notices := w.notices ++ r.notices })) := by
  -- the checks of the code are the conditions, settled one by one
  have hadmissible : r.Admissible b.toolchain w.files ↔ r.check b.toolchain w.files = .ok () := by
    rw [r.check_eq, Condition.settle_eq_ok_iff, r.admissible_iff]
  rw [hadmissible]
  refine ⟨?_, fun hrefused => ?_, fun hcheck e hfind => ?_⟩
  · rw [Toolchain.run_validate]
    rcases hcheck : r.check b.toolchain w.files with e | _
    · exact iff_of_false (fun ⟨_, h⟩ => error_ne_ok h) nofun
    · exact iff_of_true ⟨_, rfl⟩ rfl
  · rcases hcheck : r.check b.toolchain w.files with e | _
    · have hfirst := hcheck
      rw [r.check_eq, Condition.settle_eq_error_iff] at hfirst
      obtain ⟨before, c, after, hconditions, hbefore, hc, rfl⟩ := hfirst
      refine ⟨before, c, after, hconditions, hbefore, hc, Builder.run_of_furnish_error ?_⟩
      rw [Builder.run_furnish, hcheck]
    · exact absurd hcheck hrefused
  · refine Builder.run_of_furnish_error ?_
    rw [Builder.run_furnish, hcheck]
    dsimp only
    rw [hfind]
    rfl

/-- `mixedRequest` without a place for the library it asks for. -/
def unplacedRequest : Request := { mixedRequest with output := none }

/-- The dynamic library has no output, which is the first condition. -/
theorem run_admits_unplaced :
    ¬ unplacedRequest.Admissible idleBuilder.toolchain mixedWorld.files ∧
      (idleBuilder.run unplacedRequest).run mixedWorld
        = (.error (.problem .outputRequired), mixedWorld) := by
  have hrefused : ¬ unplacedRequest.Admissible idleBuilder.toolchain mixedWorld.files :=
    fun h => h.output rfl rfl
  obtain ⟨before, c, after, hconditions, hbefore, -, hrun⟩ :=
    (run_admits idleBuilder unplacedRequest mixedWorld).2.1 hrefused
  have hfirst : ¬ unplacedRequest.outputCondition.Holds := nofun
  cases before with
  | nil =>
      have hc : unplacedRequest.outputCondition = c := (List.cons.inj hconditions).1
      rw [← hc] at hrun
      exact ⟨hrefused, hrun⟩
  | cons c' before =>
      have hc' : unplacedRequest.outputCondition = c' := (List.cons.inj hconditions).1
      exact absurd (hbefore c' List.mem_cons_self) (hc' ▸ hfirst)

end AheadOfTime
