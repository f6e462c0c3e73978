import AheadOfTime.Proofs.Output

/-! # Outputs that could not be stripped

    Bundles, dynamic libraries and executables are assembled in the same three
    steps, and the last one takes the output away if the strip tool reports a
    failure.  It does not do so for a tool that could not be started:
    `unstripped_left_iff` says exactly when an output that was linked is still
    there after an assembly that failed. -/

namespace AheadOfTime

variable {w v : World}

/-! ## Assemblies -/

/-- What is to be assembled, of which kind, and where. -/
inductive Assembly where
  | bundle (unit : CompiledUnit) (output : Path)
  | dylib (inputs : List LinkInput) (output : Path) (linkerFlags : List String)
  | executable (inputs : List LinkInput) (output : Path) (static : Bool)
      (frameworks linkerFlags : List String)

namespace Assembly

/-- Where the assembled file goes. -/
def output : Assembly → Path
  | bundle _ output => output
  | dylib _ output _ => output
  | executable _ output _ _ _ => output

/-- The work of an assembly. -/
def assemble (k : Linker) : Assembly → Build Path
  | bundle unit output => k.bundle unit output
  | dylib inputs output linkerFlags => k.dylib inputs (some output) linkerFlags
  | executable inputs output static frameworks linkerFlags =>
    k.executable inputs output static frameworks linkerFlags

/-- Every assembly writes its glue, if there is one, and goes the same way from
    there. -/
theorem assemble_eq (k : Linker) (a : Assembly) :
    ∃ (glue : Except Problem String) (name : String) (objects : Path → List Path)
      (modeFlags libraries extraFlags stripFlags : List String),
      a.assemble k = (do
        let text ← Build.ofChecked glue
        let glueObject ← k.compileGlue text name
        k.link a.output (objects glueObject) modeFlags libraries extraFlags
        k.strip a.output stripFlags) := by
  cases a with
  | bundle unit output =>
      exact ⟨_, _, fun glue => [glue, unit.path], _, _, _, _, rfl⟩
  | dylib inputs output linkerFlags =>
      exact ⟨.ok (Glue.ofDylib inputs), _, fun glue => glue :: inputs.map LinkInput.path, _, _, _,
        _, rfl⟩
  | executable inputs output static frameworks linkerFlags =>
      exact ⟨_, _, fun glue => glue :: inputs.map LinkInput.path, _, _, _, _, rfl⟩

end Assembly

/-! ## What a failed assembly leaves -/

/-- **An assembly that fails behind its link** has called the strip tool, and its
    output is still there exactly if the tool left it there and was not able to
    start or to end by itself.  Only a status that the tool reports takes the
    output away. -/
theorem unstripped_left_iff {k : Linker} {a : Assembly} {e : Failure} {made : List Exchange}
    {link : Exchange} (h : (a.assemble k).run w = (.error e, v))
    (hmade : v.exchanges = w.exchanges ++ made) (hin : link ∈ made)
    (hlink : link.call.stage = .link) (hlinked : link.Succeeded) :
    ∃ before strip flags, made = before ++ [link, strip] ∧
      strip.call = k.stripCall a.output flags ∧
      (v.files.HoldsFile a.output ↔
        (k.host.left (w.exchanges ++ before ++ [link]) strip).HoldsFile a.output ∧
          ∀ status text, strip.reply ≠ .exited status text) := by
  obtain ⟨glue, name, objects, modeFlags, libraries, extraFlags, stripFlags, heq⟩ := a.assemble_eq k
  rw [heq] at h
  rcases hglue : (Build.ofChecked glue).run w with ⟨failure | text, w₁⟩
  · -- no glue, no call
    rw [run_bind_error hglue] at h
    rw [← show w₁ = v from congrArg Prod.snd h, (Build.still_ofChecked _).quiet.exchanges_eq hglue]
      at hmade
    rw [List.append_right_eq_self.mp hmade.symm] at hin
    exact nomatch hin
  · rw [run_bind_ok hglue] at h
    have hw₁ := (Build.still_ofChecked _).quiet.exchanges_eq hglue
    rcases hcompile : (k.compileGlue text name).run w₁ with ⟨failure | object, w₂⟩
    · -- the glue was not compiled, and nothing was linked
      rw [run_bind_error hcompile] at h
      rw [← show w₂ = v from congrArg Prod.snd h, ← hw₁] at hmade
      have hstage := Linker.stage_of_compileGlue hcompile hmade link hin
      rw [hlink] at hstage
      exact nomatch hstage
    · rw [run_bind_ok hcompile] at h
      obtain ⟨first, hfirst, -⟩ := follows_compileGlue k text name w₁
      rw [hcompile, hw₁] at hfirst
      have hstages := Linker.stage_of_compileGlue hcompile (hw₁ ▸ hfirst)
      rcases hrun : (k.link a.output (objects object) modeFlags libraries extraFlags).run w₂
        with ⟨failure | _, w₃⟩
      · -- the link has not succeeded
        rw [run_bind_error hrun] at h
        obtain ⟨more, hmore, hfailed⟩ := Linker.link_error hrun
        rw [← show w₃ = v from congrArg Prod.snd h, hmore, hfirst, List.append_assoc] at hmade
        rw [← List.append_cancel_left hmade] at hin
        rcases List.mem_append.mp hin with hin | hin
        · rw [hstages link hin] at hlink
          exact nomatch hlink
        · exact absurd hlinked (hfailed link hin)
      · -- it was the strip that failed, directly behind the link
        rw [run_bind_ok hrun] at h
        obtain ⟨linked, hlinks, -⟩ := Linker.link_ok hrun
        obtain ⟨strip, hstrips, hcall, hiff⟩ := Linker.strip_error h
        have hmade' : made = first ++ [linked, strip] := by
          refine List.append_cancel_left (hmade.symm.trans ?_)
          rw [hstrips, hlinks, hfirst]
          simp only [List.append_assoc, List.cons_append, List.nil_append]
        have hsame : link = linked := by
          rw [hmade'] at hin
          rcases List.mem_append.mp hin with hin | hin
          · rw [hstages link hin] at hlink
            exact nomatch hlink
          · rcases List.mem_cons.mp hin with heq | hin
            · exact heq
            · rw [List.mem_singleton.mp hin, hcall] at hlink
              exact nomatch hlink
        rw [hlinks, hfirst, ← hsame] at hiff
        exact ⟨first, strip, stripFlags, by rw [hmade', hsame], hcall, hiff⟩

/-- Tools of which the one that links writes its output and the one that strips
    is not there. -/
def unstrippingLinker : Linker where
  host := { tools := fun _ c files => match c.stage with
    | .link => (.exited 0 "", files.put ["out"] (.ofText "linked" true))
    | .strip => (.missing, files)
    | _ => (.exited 0 "", files) }
  tools := ⟨.ofString "macruby", .ofString "llc", .ofString "clang", .ofString "lipo",
    .ofString "nm", .ofString "strip"⟩
  toolchain := {}
  archs := [.arm64]

/-- A place for scratch files, and nothing else. -/
def bareWorld : World where
  files := ⟨[], [(["tmp"], .directory)]⟩

/-- The outcome of an assembly whose strip tool is not there. -/
def unstrippedRun : Except Failure Path × World :=
  ((Assembly.dylib [] (.ofString "out") []).assemble unstrippingLinker).run bareWorld

private theorem unstrippedRun_fails : unstrippedRun.1.toOption.isNone = true := by
  decide +kernel

private theorem unstrippedRun_calls : unstrippedRun.2.exchanges.map
    (fun x => (x.call.stage, x.reply))
      = [(.glue, .exited 0 ""), (.link, .exited 0 ""), (.strip, .missing)] := by
  decide +kernel

private theorem unstrippedRun_output :
    (unstrippedRun.2.files.locate .entry (.ofString "out")).toOption = some ["out"] ∧
      unstrippedRun.2.files.entryAt? ["out"] = some (.ofText "linked" true) := by
  decide +kernel

/-- The assembly fails, and what was linked is still there. -/
theorem unstripped_left_without_tool :
    ∃ e v made link, ((Assembly.dylib [] (.ofString "out") []).assemble unstrippingLinker).run
        bareWorld = (.error e, v) ∧
      v.exchanges = bareWorld.exchanges ++ made ∧ link ∈ made ∧ link.call.stage = .link ∧
      link.Succeeded ∧ v.files.HoldsFile (.ofString "out") ∧
      ∃ before strip flags, made = before ++ [link, strip] ∧
        strip.call = unstrippingLinker.stripCall (.ofString "out") flags ∧
        (v.files.HoldsFile (.ofString "out") ↔
          (unstrippingLinker.host.left (bareWorld.exchanges ++ before ++ [link]) strip).HoldsFile
            (.ofString "out") ∧ ∀ status text, strip.reply ≠ .exited status text) := by
  have hfails := unstrippedRun_fails
  have hcalls := unstrippedRun_calls
  obtain ⟨hlocate, hentry⟩ := unstrippedRun_output
  rcases h : unstrippedRun with ⟨e | artifact, v⟩
  · rw [h] at hcalls hlocate hentry
    obtain ⟨glue, calls, hmade, -, hrest⟩ := List.map_eq_cons_iff.mp hcalls
    obtain ⟨link, more, rfl, hlink, -⟩ := List.map_eq_cons_iff.mp hrest
    have hin : link ∈ v.exchanges := by
      rw [hmade]
      exact List.mem_cons_of_mem _ List.mem_cons_self
    have hstage : link.call.stage = .link := congrArg Prod.fst hlink
    have hlinked : link.Succeeded := ⟨"", congrArg Prod.snd hlink⟩
    have hholds : v.files.HoldsFile (.ofString "out") :=
      ⟨rfl, ["out"], _, eq_ok_of_toOption hlocate, hentry, nofun⟩
    exact ⟨e, v, v.exchanges, link, h, rfl, hin, hstage, hlinked, hholds,
      unstripped_left_iff (a := .dylib [] (.ofString "out") []) h rfl hin hstage hlinked⟩
  · rw [h] at hfails
    exact nomatch hfails

end AheadOfTime
