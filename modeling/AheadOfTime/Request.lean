import AheadOfTime.Problem

/-! # Build requests

    What is to be built, from which inputs and how.  A request is made from its fields
    as they are given, or from the flags of a command line; both refuse what cannot be
    built and report the first reason. -/

namespace AheadOfTime

/-- The fields of a request as they are given. -/
structure RequestFields where
  kind : String
  inputs : List Path
  output : Option Path := none
  archs : List String := ["x86_64"]
  sdk : Option Path := none
  frameworks : List String := []
  linkerFlags : List String := []
  static : Bool := false
  verbose : Bool := false
  jobs : Int := 1
  deriving DecidableEq, Repr

/-- A request that can be built. -/
structure Request where
  kind : OutputKind
  inputs : List Path
  output : Option Path
  archs : List Arch
  sdk : Option Path
  frameworks : List String
  linkerFlags : List String
  static : Bool
  verbose : Bool
  jobs : Nat
  deriving DecidableEq, Repr

namespace Request

/-- The architectures of the names; the first name that is none is reported. -/
def archsOfNames : List String → Except Problem (List Arch)
  | [] => .ok []
  | name :: later => do
    match Arch.ofName? name with
    | none => throw (.unsupportedArch name)
    | some arch => return arch :: (← archsOfNames later)

/-- The architectures of a request: at least one, each once. -/
def archs? (names : List String) : Except Problem (List Arch) := do
  match ← archsOfNames names with
  | [] => throw .noArchs
  | archs => return distinct archs

/-- What kind of output is to be built for which architectures, if there are inputs;
    this is found out first. -/
def target (f : RequestFields) : Except Problem (OutputKind × List Arch) := do
  let some kind := OutputKind.ofName? f.kind | throw (.unknownKind f.kind)
  let archs ← archs? f.archs
  if f.inputs = [] then throw .noInputs
  return (kind, archs)

/-- The request of the given fields. -/
def ofFields (f : RequestFields) : Except Problem Request := do
  let (kind, archs) ← target f
  if f.jobs < 1 then throw (.tooFewJobs f.jobs)
  if f.static ∧ kind ≠ .executable then throw (.staticNeedsExecutable kind)
  if kind.isPerInput ∧ f.output.isSome ∧ f.inputs.length > 1 then
    throw (.oneOutputForMany kind f.inputs.length)
  return ⟨kind, f.inputs, f.output, archs, f.sdk, f.frameworks, f.linkerFlags, f.static, f.verbose,
    f.jobs.toNat⟩

/-- The fields that give the request again. -/
def fields (r : Request) : RequestFields where
  kind := r.kind.name
  inputs := r.inputs
  output := r.output
  archs := r.archs.map Arch.name
  sdk := r.sdk
  frameworks := r.frameworks
  linkerFlags := r.linkerFlags
  static := r.static
  verbose := r.verbose
  jobs := r.jobs

end Request

/-- The flags of a command line that choose the kind of output. -/
structure KindFlags where
  dontLink : Bool := false
  bundle : Bool := false
  dylib : Bool := false
  static : Bool := false
  deriving DecidableEq, Repr

namespace KindFlags

/-- The flags that exclude each other, in the order in which they are checked. -/
def conflicts (f : KindFlags) : List ((String × Bool) × (String × Bool)) :=
  let dontLink := ("dont-link", f.dontLink)
  let bundle := ("bundle", f.bundle)
  let dylib := ("dylib", f.dylib)
  let static := ("static", f.static)
  [(dontLink, bundle), (dylib, static), (dylib, dontLink), (dylib, bundle), (static, dontLink),
    (static, bundle)]

/-- The first two flags that are set and exclude each other. -/
def conflict? (f : KindFlags) : Option (String × String) :=
  (f.conflicts.find? fun pair => pair.1.2 && pair.2.2).map fun pair => (pair.1.1, pair.2.1)

/-- The kind of output the flags choose. -/
def kind (f : KindFlags) : OutputKind :=
  if f.dontLink then .object else if f.bundle then .bundle else if f.dylib then .dylib
  else .executable

/-- The given fields with kind and `static` as the flags choose them. -/
def applied (flags : KindFlags) (f : RequestFields) : Except Problem RequestFields := do
  if let some (first, second) := flags.conflict? then throw (.conflictingFlags first second)
  return { f with kind := flags.kind.name, static := flags.static }

end KindFlags

/-- The request of the given flags; kind and `static` of `f` are those the flags choose. -/
def Request.ofFlags (flags : KindFlags) (f : RequestFields) : Except Problem Request := do
  ofFields (← flags.applied f)

end AheadOfTime
