import AheadOfTime.Build.Validate
import AheadOfTime.Proofs.Site

/-! # Toolchains inside SDKs

    Seen from inside an SDK, everything a toolchain reads lies below the SDK's
    directory.  Joining loses what stands on its left as soon as the right side is
    anchored, so this rests on the roots losing their anchors on the way into the
    SDK, and on names that are joined later having none.

    An SDK may itself be seen from inside another one.  `Encloses` is what the last
    SDK of a series is to the toolchain it leaves, whatever came before;
    `NestedIn` is what no SDK of the series changes, and is carried along it by
    induction. -/

namespace AheadOfTime

/-! ## Parts of paths -/

/-- What an anchor counts among the parts of a path. -/
def Anchor.components : Anchor → List String
  | relative => []
  | root => [root.text]
  | doubleRoot => [doubleRoot.text]

namespace Path

/-- The parts of a path: its anchor, if it has one, and its names. -/
def components (p : Path) : List String := p.anchor.components ++ p.parts

/-- The path `p` begins with the parts of `top`. -/
def LiesBelow (top p : Path) : Prop := top.components <+: p.components

instance (top p : Path) : Decidable (LiesBelow top p) :=
  inferInstanceAs (Decidable (_ <+: _))

variable {p q r : Path} {s : String}

/-- What lies below something lies below whatever that lies below. -/
theorem LiesBelow.trans (h : LiesBelow p q) (h' : LiesBelow q r) : LiesBelow p r :=
  List.IsPrefix.trans h h'

/-- Below another path, the anchor is lost and the names are kept. -/
theorem components_below (top p : Path) :
    (top.below p).components = top.components ++ p.parts :=
  (List.append_assoc top.anchor.components top.parts p.parts).symm

theorem liesBelow_below (top p : Path) : LiesBelow top (top.below p) := by
  unfold LiesBelow
  rw [components_below]
  exact List.prefix_append _ _

/-- Joining a path without an anchor puts its names behind. -/
theorem components_join (p : Path) (hq : q.anchor = .relative) :
    (p.join q).components = p.components ++ q.parts := by
  unfold join
  rw [if_pos hq]
  exact (List.append_assoc p.anchor.components p.parts q.parts).symm

/-- What is named without a leading slash stays below. -/
theorem liesBelow_child (p : Path) (hs : s.toList.head? ≠ some '/') :
    LiesBelow p (p.child s) := by
  have hrelative : (ofString s).anchor = .relative := Anchor.ofChars_relative hs
  unfold LiesBelow child
  rw [components_join p hrelative]
  exact List.prefix_append _ _

end Path

namespace Text

/-- A text has no leading slash if neither of its two halves has one. -/
theorem head?_append_ne_slash {s extension : String} (hs : s.toList.head? ≠ some '/')
    (hextension : extension.toList.head? ≠ some '/') :
    (s ++ extension).toList.head? ≠ some '/' := by
  rw [String.toList_append]
  cases hlist : s.toList with
  | nil => exact hextension
  | cons c later =>
      rw [hlist] at hs
      exact hs

end Text

namespace Toolchain

open AheadOfTime.Path (LiesBelow)

variable {s t u : Toolchain}

/-! ## What lies below the roots -/

/-- The programs lie below the root of the runtime. -/
theorem liesBelow_binDir (t : Toolchain) : LiesBelow t.runtimeRoot t.binDir :=
  t.runtimeRoot.liesBelow_child (by decide)

theorem liesBelow_libDir (t : Toolchain) : LiesBelow t.runtimeRoot t.libDir :=
  t.runtimeRoot.liesBelow_child (by decide)

/-- So does the static library, if its name has no slash in front. -/
theorem liesBelow_staticLibraryPath (h : t.staticLibrary.toList.head? ≠ some '/') :
    LiesBelow t.runtimeRoot t.staticLibraryPath :=
  t.liesBelow_libDir.trans (t.libDir.liesBelow_child h)

/-- The metadata of a framework lies below the frameworks: what is joined with a
    part of the framework's name has no leading slash if the name has none. -/
theorem liesBelow_bridgeSupportPath (t : Toolchain) {framework : String}
    (h : framework.toList.head? ≠ some '/') :
    LiesBelow t.frameworksRoot (t.bridgeSupportPath framework) := by
  have hframework : (framework ++ ".framework").toList.head? ≠ some '/' :=
    Text.head?_append_ne_slash h (by decide)
  have hmetadata : (framework ++ ".bridgesupport").toList.head? ≠ some '/' :=
    Text.head?_append_ne_slash h (by decide)
  have hresources : "Resources".toList.head? ≠ some '/' := by decide
  have hbridge : "BridgeSupport".toList.head? ≠ some '/' := by decide
  unfold bridgeSupportPath
  -- one name after the other, each below what stands before it
  refine (Path.liesBelow_child _ hframework).trans ?_
  refine (Path.liesBelow_child _ hresources).trans ?_
  refine (Path.liesBelow_child _ hbridge).trans ?_
  exact Path.liesBelow_child _ hmetadata

/-! ## One SDK -/

/-- Everything the toolchain reads lies below the SDK, except what it names with a
    leading slash. -/
structure Encloses (sdk : Path) (t : Toolchain) : Prop where
  runtimeRoot : LiesBelow sdk t.runtimeRoot
  frameworksRoot : LiesBelow sdk t.frameworksRoot
  binDir : LiesBelow sdk t.binDir
  libDir : LiesBelow sdk t.libDir
  staticLibraryPath : t.staticLibrary.toList.head? ≠ some '/' →
    LiesBelow sdk t.staticLibraryPath
  bridgeSupportPath : ∀ framework : String, framework.toList.head? ≠ some '/' →
    LiesBelow sdk (t.bridgeSupportPath framework)

/-- The toolchain `s` is `t` with its roots moved: both still end with the names
    they had, and nothing but them and the SDK has changed. -/
structure NestedIn (s t : Toolchain) : Prop where
  runtimeRoot : t.runtimeRoot.parts <:+ s.runtimeRoot.parts
  frameworksRoot : t.frameworksRoot.parts <:+ s.frameworksRoot.parts
  rest : s = { t with
    runtimeRoot := s.runtimeRoot, frameworksRoot := s.frameworksRoot, sdk := s.sdk }

/-- The roots carry everything else into the SDK. -/
theorem Encloses.of_roots {sdk : Path} (hruntime : LiesBelow sdk t.runtimeRoot)
    (hframeworks : LiesBelow sdk t.frameworksRoot) : Encloses sdk t where
  runtimeRoot := hruntime
  frameworksRoot := hframeworks
  binDir := hruntime.trans t.liesBelow_binDir
  libDir := hruntime.trans t.liesBelow_libDir
  staticLibraryPath h := hruntime.trans (liesBelow_staticLibraryPath h)
  bridgeSupportPath _ h := hframeworks.trans (t.liesBelow_bridgeSupportPath h)

/-- **One SDK** encloses any toolchain seen from inside it. -/
theorem encloses_forSdk (t : Toolchain) (sdk : Path) : Encloses sdk (t.forSdk sdk) :=
  .of_roots (sdk.liesBelow_below t.runtimeRoot) (sdk.liesBelow_below t.frameworksRoot)

namespace NestedIn

theorem refl (t : Toolchain) : NestedIn t t := ⟨List.suffix_rfl, List.suffix_rfl, rfl⟩

/-- To be nested is to be nested in all that is around. -/
theorem trans (h : NestedIn s u) (h' : NestedIn u t) : NestedIn s t where
  runtimeRoot := h'.runtimeRoot.trans h.runtimeRoot
  frameworksRoot := h'.frameworksRoot.trans h.frameworksRoot
  rest := by
    have hrest := h.rest
    rw [h'.rest] at hrest
    exact hrest

/-- One SDK is put in front of the roots. -/
theorem forSdk (t : Toolchain) (sdk : Path) : NestedIn (t.forSdk sdk) t :=
  ⟨List.suffix_append _ _, List.suffix_append _ _, rfl⟩

theorem toolName (h : NestedIn s t) (role : ToolRole) : s.toolName role = t.toolName role := by
  rw [h.rest]
  cases role <;> rfl

/-- The extensions that inputs may have are kept. -/
theorem allowedExtensions (h : NestedIn s t) (r : Request) :
    r.allowedExtensions s = r.allowedExtensions t := by
  rw [h.rest]
  rfl

end NestedIn

/-! ## A series of SDKs -/

/-- The toolchain as it lies inside one SDK after the other. -/
def inSdks (t : Toolchain) (sdks : List Path) : Toolchain := sdks.foldl forSdk t

/-- The last SDK is put in front of the others. -/
theorem inSdks_concat (t : Toolchain) (earlier : List Path) (last : Path) :
    t.inSdks (earlier ++ [last]) = (t.inSdks earlier).forSdk last := by
  unfold inSdks
  rw [List.foldl_append, List.foldl_cons, List.foldl_nil]

/-- **A series of SDKs** is put in front of the roots. -/
theorem nestedIn_inSdks (t : Toolchain) (sdks : List Path) : NestedIn (t.inSdks sdks) t := by
  -- the first SDK changes the toolchain that the later ones start from
  induction sdks generalizing t with
  | nil => exact .refl t
  | cons sdk later ih => exact (ih (t.forSdk sdk)).trans (.forSdk t sdk)

/-- The last SDK of a series encloses the toolchain. -/
theorem encloses_inSdks (t : Toolchain) {sdks : List Path} {last : Path}
    (hlast : sdks.getLast? = some last) : Encloses last (t.inSdks sdks) := by
  obtain ⟨earlier, rfl⟩ := List.getLast?_eq_some_iff.mp hlast
  rw [inSdks_concat]
  exact encloses_forSdk _ last

theorem sdk_inSdks (t : Toolchain) {sdks : List Path} {last : Path}
    (hlast : sdks.getLast? = some last) : (t.inSdks sdks).sdk = some last := by
  obtain ⟨earlier, rfl⟩ := List.getLast?_eq_some_iff.mp hlast
  rw [inSdks_concat]
  rfl

/-- **A series of SDKs** leaves a toolchain that its last SDK encloses, whatever the
    earlier ones and the roots were anchored at.  The roots still end with the names
    they had, and neither the tools nor the extensions depend on the series. -/
theorem inSdks_enclosed (t : Toolchain) {sdks : List Path} {last : Path}
    (hlast : sdks.getLast? = some last) :
    Encloses last (t.inSdks sdks) ∧ NestedIn (t.inSdks sdks) t ∧
      (t.inSdks sdks).sdk = some last ∧
      (∀ role, (t.inSdks sdks).toolName role = t.toolName role) ∧
      ∀ r : Request, r.allowedExtensions (t.inSdks sdks) = r.allowedExtensions t := by
  have hnested := t.nestedIn_inSdks sdks
  refine ⟨t.encloses_inSdks hlast, hnested, t.sdk_inSdks hlast, ?_, ?_⟩
  · exact hnested.toolName
  · exact hnested.allowedExtensions

/-- A toolchain below two slashes, whose frameworks and static library are found
    relative to where it is used. -/
def vendored : Toolchain where
  runtimeRoot := .ofString "//vendor/ruby/usr"
  frameworksRoot := .ofString "Frameworks"
  staticLibrary := "static/libruby.a"

/-- SDKs of every anchor, one seen from inside the other. -/
def nestedSdks : List Path := [.ofString "sdks/base", .ofString "//net/sdk", .ofString "/work/sdk"]

theorem inSdks_enclosed_vendored :
    nestedSdks.getLast? = some ⟨.root, ["work", "sdk"]⟩ ∧
    (vendored.inSdks nestedSdks).runtimeRoot.toString
      = "/work/sdk/net/sdk/sdks/base/vendor/ruby/usr" ∧
    LiesBelow ⟨.root, ["work", "sdk"]⟩ (vendored.inSdks nestedSdks).staticLibraryPath ∧
    LiesBelow ⟨.root, ["work", "sdk"]⟩ ((vendored.inSdks nestedSdks).bridgeSupportPath "AppKit") ∧
    vendored.runtimeRoot.parts <:+ (vendored.inSdks nestedSdks).runtimeRoot.parts ∧
    (vendored.inSdks nestedSdks).toolName .frontend = "macruby" := by
  have hlast : nestedSdks.getLast? = some ⟨.root, ["work", "sdk"]⟩ := by decide
  obtain ⟨henclosed, hnested, -, htool, -⟩ := inSdks_enclosed vendored hlast
  refine ⟨hlast, by decide, ?_, ?_, hnested.runtimeRoot, htool .frontend⟩
  · exact henclosed.staticLibraryPath (by decide)
  · exact henclosed.bridgeSupportPath "AppKit" (by decide)

end Toolchain

end AheadOfTime
