import AheadOfTime.Proofs.Plan
import AheadOfTime.Proofs.Walk

/-! # Making an output

    An output is made in three steps: its glue is written and compiled, it is
    linked, and it is stripped.  This file says of each step which calls it has
    made and what it leaves, if it answers and if it fails. -/

namespace AheadOfTime

namespace Linker

variable {k : Linker} {w v : World}

/-! ## Steps that answer -/

/-- Glue that is compiled lies, as it was written, at the path the tool is
    called with. -/
theorem compileGlue_ok {text name : String} {object : Path}
    (h : (k.compileGlue text name).run w = (.ok object, v)) :
    ∃ source glue executable, v.exchanges = w.exchanges ++ [glue] ∧
      glue.call = k.glueCall name source object ∧
      glue.found.status source = .ok (.ofText text executable) := by
  obtain ⟨source, w₁, hsource, h₁⟩ := run_bind_eq_ok h
  obtain ⟨_, w₂, hwrite, h₂⟩ := run_bind_eq_ok h₁
  obtain ⟨object', w₃, hobject, h₃⟩ := run_bind_eq_ok h₂
  obtain ⟨_, w₄, hrun, h₄⟩ := run_bind_eq_ok h₃
  obtain ⟨rfl, rfl⟩ := run_pure_eq_ok h₄
  obtain ⟨files, hdisk, rfl⟩ := Build.onDisk_ok hwrite
  obtain ⟨executable, hstatus⟩ := Disk.status_of_writeText hdisk
  -- the directory is there since the first allocation, so the second one makes none
  have hsame : w₃.files = files := (Build.allocate_ok hobject).2.2 (Build.allocate_ok hsource).1
  refine ⟨source, k.host.exchanged (k.glueCall name source object') w₃, executable, ?_, rfl, ?_⟩
  · rw [Host.hostRun_ok hrun, (Build.quiet_allocate _ _ _).exchanges_eq hobject,
      (Build.quiet_onDisk _).exchanges_eq hwrite,
      (Build.quiet_allocate _ _ _).exchanges_eq hsource]
  · show w₃.files.status source = _
    rw [hsame]
    exact hstatus

theorem link_ok {output : Path} {objects : List Path} {modeFlags libraries extraFlags : List String}
    (h : (k.link output objects modeFlags libraries extraFlags).run w = (.ok (), v)) :
    ∃ link, v.exchanges = w.exchanges ++ [link] ∧
      link.call = k.linkCall output objects modeFlags libraries extraFlags := by
  obtain ⟨_, w₁, hmake, h₁⟩ := run_bind_eq_ok h
  obtain ⟨_, w₂, hrun, h₂⟩ := run_bind_eq_ok h₁
  obtain ⟨-, rfl⟩ := run_pure_eq_ok h₂
  refine ⟨k.host.exchanged (k.linkCall output objects modeFlags libraries extraFlags) w₁, ?_, rfl⟩
  rw [Host.hostRun_ok hrun, (Build.quiet_onDisk _).exchanges_eq hmake]

theorem strip_ok {output artifact : Path} {flags : List String}
    (h : (k.strip output flags).run w = (.ok artifact, v)) :
    artifact = output ∧ ∃ strip, v.exchanges = w.exchanges ++ [strip] ∧
      strip.call = k.stripCall output flags := by
  obtain ⟨rfl, result, hrun⟩ := run_strip_eq_ok h
  exact ⟨rfl, _, Host.hostRun_ok hrun, rfl⟩

/-- An output that is made is linked from the object of the glue it was given
    and stripped. -/
theorem finish_ok {text name : String} {output artifact : Path} (objects : Path → List Path)
    {modeFlags libraries extraFlags stripFlags : List String}
    (h : (do
      let glueObject ← k.compileGlue text name
      k.link output (objects glueObject) modeFlags libraries extraFlags
      k.strip output stripFlags).run w = (.ok artifact, v)) :
    artifact = output ∧ ∃ source object executable glue link strip,
      v.exchanges = w.exchanges ++ [glue, link, strip] ∧
      glue.call = k.glueCall name source object ∧
      glue.found.status source = .ok (.ofText text executable) ∧
      link.call = k.linkCall output (objects object) modeFlags libraries extraFlags ∧
      strip.call = k.stripCall output stripFlags := by
  obtain ⟨object, w₁, hglue, h₁⟩ := run_bind_eq_ok h
  obtain ⟨_, w₂, hlink, hstrip⟩ := run_bind_eq_ok h₁
  obtain ⟨source, glue, executable, hglues, hcall, hfound⟩ := compileGlue_ok hglue
  obtain ⟨link, hlinks, hlink⟩ := link_ok hlink
  obtain ⟨hartifact, strip, hstrips, hstrip⟩ := strip_ok hstrip
  refine ⟨hartifact, source, object, executable, glue, link, strip, ?_, hcall, hfound,
    hlink, hstrip⟩
  rw [hstrips, hlinks, hglues]
  simp only [List.append_assoc, List.cons_append, List.nil_append]

/-! ## Steps that fail -/

/-- Compiling glue calls nothing but the compiler of glue. -/
theorem stage_of_compileGlue {text name : String} {answer : Except Failure Path}
    {made : List Exchange} (h : (k.compileGlue text name).run w = (answer, v))
    (hmade : v.exchanges = w.exchanges ++ made) : ∀ x ∈ made, x.call.stage = .glue := by
  obtain ⟨made', hmade', hobeys⟩ := follows_compileGlue k text name w
  rw [h, hmade] at hmade'
  rw [List.append_cancel_left hmade']
  intro x hx
  obtain ⟨p, hp, hlabel⟩ := hobeys.label_mem hx
  rw [List.mem_singleton.mp hp] at hlabel
  exact congrArg Label.stage (List.mem_singleton.mp hlabel)

/-- A link that fails has not succeeded. -/
theorem link_error {output : Path} {objects : List Path}
    {modeFlags libraries extraFlags : List String} {e : Failure}
    (h : (k.link output objects modeFlags libraries extraFlags).run w = (.error e, v)) :
    ∃ made, v.exchanges = w.exchanges ++ made ∧ ∀ x ∈ made, ¬ x.Succeeded := by
  unfold link at h
  rcases hmake : (Build.onDisk (Disk.makeDirectories output.parent)).run w with ⟨failure | _, u⟩
  · -- without its directory nothing is linked
    rw [run_bind_error hmake] at h
    rw [← show u = v from congrArg Prod.snd h]
    refine ⟨[], ?_, ?_⟩
    · rw [(Build.quiet_onDisk _).exchanges_eq hmake, List.append_nil]
    · intro x hx
      exact nomatch hx
  · rw [run_bind_ok hmake] at h
    have hargv : (k.linkCall output objects modeFlags libraries extraFlags).argv ≠ [] := by
      simp [linkCall]
    rcases hrun : (k.host.run (k.linkCall output objects modeFlags libraries extraFlags)).run u
      with ⟨failure | result, u'⟩
    · rw [run_bind_error hrun] at h
      have hcalled := k.host.exchanges_hostRun hargv u
      rw [hrun] at hcalled
      refine ⟨[k.host.exchanged (k.linkCall output objects modeFlags libraries extraFlags) u],
        ?_, ?_⟩
      · rw [← show u' = v from congrArg Prod.snd h, ← (Build.quiet_onDisk _).exchanges_eq hmake]
        exact hcalled
      · rintro x hx ⟨text, hzero⟩
        rw [List.mem_singleton.mp hx] at hzero
        exact (Host.run_hostRun_eq_error hargv hrun).2.1 text hzero
    · rw [run_bind_ok hrun] at h
      exact absurd h ok_ne_error

/-- Behind a strip that fails the output is there if the tool left it there and
    did not end by itself. -/
theorem strip_error {output : Path} {flags : List String} {e : Failure}
    (h : (k.strip output flags).run w = (.error e, v)) :
    ∃ strip, v.exchanges = w.exchanges ++ [strip] ∧ strip.call = k.stripCall output flags ∧
      (v.files.HoldsFile output ↔ (k.host.left w.exchanges strip).HoldsFile output ∧
        ∀ status text, strip.reply ≠ .exited status text) := by
  have hargv : (k.stripCall output flags).argv ≠ [] := by simp [stripCall]
  have hcalled := k.host.exchanges_hostRun hargv w
  rcases hrun : (k.host.run (k.stripCall output flags)).run w with ⟨failure | result, u⟩
  · rw [hrun] at hcalled
    obtain ⟨hfiles, -, hended⟩ := Host.run_hostRun_eq_error hargv hrun
    rw [run_strip, hrun] at h
    by_cases hself : ∃ tool stage input arch exit,
        failure = .problem (.toolFailed tool stage input arch exit)
    · -- the tool reported the failure, and the output is taken away
      obtain ⟨status, text, hreply⟩ := hended.mpr hself
      obtain ⟨tool, stage, input, arch, exit, rfl⟩ := hself
      dsimp only at h
      have hv : v = ((Build.onDisk (Disk.removeIfPresent output)).run u).2 := by
        rcases hremove : (Build.onDisk (Disk.removeIfPresent output)).run u with ⟨_ | _, u'⟩
        · rw [hremove] at h
          exact (congrArg Prod.snd h).symm
        · rw [hremove] at h
          exact (congrArg Prod.snd h).symm
      have hgone : ¬ v.files.HoldsFile output := by
        have hnone := Disk.not_holdsFile_of_removeIfPresent output u.files
        rw [hv, Build.files_onDisk]
        exact hnone
      refine ⟨k.host.exchanged (k.stripCall output flags) w, ?_, rfl, ?_⟩
      · rw [hv, Build.quiet_onDisk]
        exact hcalled
      · exact ⟨fun hholds => absurd hholds hgone, fun hand => absurd hreply (hand.2 status text)⟩
    · have hv : u = v := by
        rcases failure with p | fault
        · cases p <;> try exact congrArg Prod.snd h
          exact absurd ⟨_, _, _, _, _, rfl⟩ hself
        · exact congrArg Prod.snd h
      rw [← hv]
      refine ⟨k.host.exchanged (k.stripCall output flags) w, hcalled, rfl, ?_⟩
      rw [hfiles]
      exact ⟨fun hholds => ⟨hholds, fun status text hreply =>
        hself (hended.mp ⟨status, text, hreply⟩)⟩,
        fun hand => hand.1⟩
  · rw [run_strip, hrun] at h
    exact absurd h ok_ne_error

end Linker

end AheadOfTime
