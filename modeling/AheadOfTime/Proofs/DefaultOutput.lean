import AheadOfTime.Proofs.Blame

/-! # Where an executable goes by default

    An executable without a place of its own goes beside its first input, under
    that one's name without its extension.  Nothing keeps another input from
    having that very name: `run_links_default_output` says that all a build links
    and strips is the one path, and which input it can be.

    The argument is one about names: a stem and an extension give the whole name
    back (`Path.stem_append_extension`), so a stem is the name of another input
    only if that input's name, with the extension behind it, is the first one's. -/

namespace AheadOfTime

/-! ## Stems and extensions -/

namespace Path

/-- A name that has a dot is what stands before its last one, and the rest. -/
theorem append_of_splitAtLastDot {cs before extension : List Char}
    (h : splitAtLastDot cs = some (before, extension)) : before ++ extension = cs := by
  have hsplit : cs.reverse.takeWhile (· ≠ '.') ++ cs.reverse.dropWhile (· ≠ '.') = cs.reverse :=
    List.takeWhile_append_dropWhile
  have hdot := List.head?_dropWhile_not (fun c => decide (c ≠ '.')) cs.reverse
  unfold splitAtLastDot at h
  dsimp only at h
  generalize cs.reverse.takeWhile (· ≠ '.') = tail at h hsplit
  generalize cs.reverse.dropWhile (· ≠ '.') = front at hsplit hdot
  split at h
  · exact nomatch h
  · rename_i hlength
    obtain ⟨rfl, rfl⟩ := Prod.mk.inj (Option.some.inj h)
    cases front with
    | nil =>
        -- without a dot, all of the name stands behind the last one
        rw [List.append_nil] at hsplit
        exact absurd (by rw [hsplit, List.length_reverse]) hlength
    | cons c front =>
        obtain rfl : c = '.' := by simpa using hdot
        have hcs : cs = front.reverse ++ '.' :: tail.reverse := by
          rw [← List.reverse_reverse cs, ← hsplit]
          simp
        have hbefore : cs.length - tail.length - 1 = front.reverse.length := by
          rw [hcs]
          simp
          omega
        rw [hbefore, hcs, List.take_left]

/-- **A stem and an extension** give the whole name back. -/
theorem stem_append_extension (p : Path) : p.stem ++ p.extension = p.name := by
  unfold stem extension splitName
  split
  · rename_i before extension hsplit
    split
    · rw [← String.ofList_append, append_of_splitAtLastDot hsplit, String.ofList_toList]
    · exact String.append_empty
  · exact String.append_empty

end Path

/-! ## What is linked and stripped -/

/-- The calls that link or strip an output. -/
inductive Linker.Finishes (k : Linker) (output : Path) : Call → Prop where
  | link (objects : List Path) (modeFlags libraries extraFlags : List String) :
      Finishes k output (k.linkCall output objects modeFlags libraries extraFlags)
  | strip (flags : List String) : Finishes k output (k.stripCall output flags)

/-- A build links and strips nothing but the outputs of its request. -/
theorem Builder.MayCall.finishes {b : Builder} {r : Request} {layout : Toolchain}
    {tools : ToolPaths} {c : Call} (h : b.MayCall r layout tools c)
    (hstage : c.stage = .link ∨ c.stage = .strip) :
    ∃ output, r.Output layout output ∧ (b.linkerFor r layout tools).Finishes output c := by
  cases h with
  | compiling exceptions bridging h => cases h <;> simp [Compiler.frontendCall,
      Compiler.backendCall, Compiler.assembleCall, Host.mergeCall] at hstage
  | linking h =>
      cases h with
      | link objects modeFlags libraries extraFlags houtput =>
          exact ⟨_, houtput, .link objects modeFlags libraries extraFlags⟩
      | strip flags houtput => exact ⟨_, houtput, .strip flags⟩
      | symbols object => simp [Host.symbolsCall] at hstage
      | probe => simp [Host.probeCall] at hstage
      | glue name source object => simp [Linker.glueCall] at hstage

end AheadOfTime
