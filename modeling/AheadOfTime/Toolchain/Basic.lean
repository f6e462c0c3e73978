import AheadOfTime.Problem

/-! # Toolchains

    Where the tools and the language runtime live, which extensions its files have, and
    how the runtime is linked.  A toolchain can be seen from inside an SDK: then the
    runtime and the frameworks lie below the SDK's directory. -/

namespace AheadOfTime

/-- Names of environment variables with their values. -/
abbrev Environment := List (String × String)

/-- The value of an environment variable, if it is set and not empty. -/
def Environment.value? (env : Environment) (name : String) : Option String :=
  (env.lookup name).filter (· ≠ "")

/-- Where the tools and the runtime live, and how the runtime is linked. -/
structure Toolchain where
  frontend : String := "macruby"
  backend : String := "llc"
  cc : String := "clang"
  lipo : String := "lipo"
  nm : String := "nm"
  strip : String := "strip"
  runtimeRoot : Path := .ofString "/Library/Frameworks/MacRuby.framework/Versions/Current/usr"
  runtimeLibrary : String := "macruby"
  staticLibrary : String := "libmacruby-static.a"
  staticDependencies : List String :=
    ["-lobjc", "-licucore", "-lauto", "-lz", "-framework", "Foundation"]
  frameworksRoot : Path := .ofString "/System/Library/Frameworks"
  sourceExtension : String := ".rb"
  objectExtension : String := ".o"
  bundleExtension : String := ".rbo"
  libraryExtensions : List String := [".dylib", ".so"]
  sdk : Option Path := none
  deriving DecidableEq, Repr

namespace Toolchain

/-- The configured name of the tool for a role. -/
def toolName (t : Toolchain) : ToolRole → String
  | .frontend => t.frontend
  | .backend => t.backend
  | .cc => t.cc
  | .lipo => t.lipo
  | .nm => t.nm
  | .strip => t.strip

/-- The toolchain with another tool for a role. -/
def withTool (t : Toolchain) (tool : String) : ToolRole → Toolchain
  | .frontend => { t with frontend := tool }
  | .backend => { t with backend := tool }
  | .cc => { t with cc := tool }
  | .lipo => { t with lipo := tool }
  | .nm => { t with nm := tool }
  | .strip => { t with strip := tool }

/-- Where the runtime's programs are. -/
def binDir (t : Toolchain) : Path := t.runtimeRoot.child "bin"

/-- Where the runtime's libraries are. -/
def libDir (t : Toolchain) : Path := t.runtimeRoot.child "lib"

/-- The library that static executables are linked with. -/
def staticLibraryPath (t : Toolchain) : Path := t.libDir.child t.staticLibrary

/-- The toolchain as it lies inside an SDK. -/
def forSdk (t : Toolchain) (sdk : Path) : Toolchain :=
  { t with
    runtimeRoot := sdk.below t.runtimeRoot
    frameworksRoot := sdk.below t.frameworksRoot
    sdk := some sdk }

/-- The toolchain with the tools and the runtime that the environment names. -/
def ofEnvironment (env : Environment) : Toolchain :=
  let tools := ToolRole.all.foldl (fun t role =>
    match env.value? role.variableName with
    | some tool => t.withTool tool role
    | none => t) ({} : Toolchain)
  match env.value? "AOTC_PREFIX" with
  | some root => { tools with runtimeRoot := .ofString root }
  | none => tools

/-- The metadata that a framework ships for the front end. -/
def bridgeSupportPath (t : Toolchain) (framework : String) : Path :=
  t.frameworksRoot.child (framework ++ ".framework") |>.child "Resources" |>.child "BridgeSupport"
    |>.child (framework ++ ".bridgesupport")

end Toolchain

end AheadOfTime
