import AheadOfTime.Proofs.Printing

/-! # Commands and their lines

    A command is told of by one line: in the record of its start, in what a log shows,
    and in the error if it fails.  The line is written for an argument vector, and all
    of it can be read back (`Shell.Words.words?_shellLine`), so that different commands
    have different lines (`Text.shellLine_injective`).

    `World.Logs` and `World.Shows` say of two worlds which line was logged and shown
    between them; there is one at most.  `Host.run_shows_command` is about every
    command, host and world: the command may be missing, fail, or end as it wants to. -/

namespace AheadOfTime

variable {w v : World} {line line' : String}

/-- The lines of different commands are different. -/
theorem Text.shellLine_injective : Function.Injective shellLine := by
  intro argv argv' h
  have hwords := Shell.Words.words?_shellLine argv
  rw [h, Shell.Words.words?_shellLine] at hwords
  exact (Option.some.inj hwords).symm

namespace World

/-- One command was started in between, and this line is the message of its record. -/
def Logs (w v : World) (line : String) : Prop :=
  ∃ start later, v.log = w.log ++ start :: later ∧ start.operation = "invoke" ∧
    start.message = line ∧ ∀ record ∈ later, record.operation ≠ "invoke"

/-- This line was shown in between, and no other one. -/
def Shows (w v : World) (line : String) : Prop := v.log.echoed = w.log.echoed ++ [line]

theorem Logs.unique (h : w.Logs v line) (h' : w.Logs v line') : line = line' := by
  obtain ⟨start, later, hlog, -, rfl, -⟩ := h
  obtain ⟨start', later', hlog', -, rfl, -⟩ := h'
  have hsame := List.append_cancel_left (hlog.symm.trans hlog')
  rw [(List.cons.inj hsame).1]

theorem Shows.unique (h : w.Shows v line) (h' : w.Shows v line') : line = line' :=
  List.singleton_inj.mp (List.append_cancel_left (Eq.trans (Eq.symm h) h'))

/-- Where no record is added, no line is. -/
theorem not_logs_or_shows (h : v.log = w.log) (line : String) :
    ¬ (w.Logs v line ∨ w.Shows v line) := by
  rintro (⟨start, later, hlog, -⟩ | hechoed)
  · rw [h] at hlog
    exact absurd (List.self_eq_append_right.mp hlog) (List.cons_ne_nil _ _)
  · rw [Shows, h] at hechoed
    exact absurd (List.self_eq_append_right.mp hechoed) (List.cons_ne_nil _ _)

end World

namespace Host

variable {host : Host} {c : Call}

/-- **A command is logged** as the line of its arguments. -/
theorem logs_run (host : Host) (hargv : c.argv ≠ []) (w : World) :
    w.Logs ((host.run c).run w).2 (Text.shellLine c.argv) := by
  refine ⟨_, _, (host.recounts_hostRun hargv w).log, rfl, rfl, fun record hrecord => ?_⟩
  -- behind the record of the start there is that of a failure at most
  obtain ⟨status, -, rfl⟩ := List.mem_map.mp hrecord
  simp [Exchange.failureRecord]

/-- **A command is shown** as the line of its arguments. -/
theorem shows_run (host : Host) (hargv : c.argv ≠ []) (w : World) :
    w.Shows ((host.run c).run w).2 (Text.shellLine c.argv) := by
  rw [World.Shows, (host.recounts_hostRun hargv w).log, Log.echoed_append,
    Exchange.echoed_records]
  rfl

/-- What is logged or shown of a command determines its arguments. -/
theorem argv_eq_of_logs_or_shows {argv : List String}
    (h : w.Logs ((host.run c).run w).2 (Text.shellLine argv) ∨
      w.Shows ((host.run c).run w).2 (Text.shellLine argv)) : c.argv = argv := by
  by_cases hargv : c.argv = []
  · rw [run_hostRun_of_nil host hargv] at h
    exact absurd h (World.not_logs_or_shows rfl _)
  · refine Text.shellLine_injective (h.elim (fun hlogs => ?_) fun hshows => ?_)
    · exact (host.logs_run hargv w).unique hlogs
    · exact (host.shows_run hargv w).unique hshows

/-- A failure of the tool names the arguments of the command. -/
theorem command_of_toolExit {p : Problem} {exit : ToolExit} (hargv : c.argv ≠ [])
    (h : ((host.run c).run w).1 = .error (.problem p)) (hexit : p.report.toolExit = some exit) :
    exit.command = c.argv := by
  have hcalled := host.called c w
  generalize (host.run c).run w = outcome at hcalled h
  cases hcalled with
  | unnamed hnone => exact absurd hnone hargv
  | missing =>
      -- a tool that could not be started has not ended
      cases h
      exact nomatch hexit
  | failed => exact nomatch h
  | rejected =>
      cases h
      exact congrArg ToolExit.command (Option.some.inj hexit).symm
  | answered => exact nomatch h

/-- **A command can be read off its line.**  Whatever becomes of it, there is a line that
    it is logged and shown as, and of which a shell makes its arguments.  The same line
    is in the error if the tool fails, and no other command, of any host in any world, is
    logged or shown as this line. -/
theorem run_shows_command (host : Host) (hargv : c.argv ≠ []) (w : World) :
    ∃ line, w.Logs ((host.run c).run w).2 line ∧ w.Shows ((host.run c).run w).2 line ∧
      Shell.Words.words? line.toList = some c.argv ∧
      (∀ p exit, ((host.run c).run w).1 = .error (.problem p) →
        p.report.toolExit = some exit → Text.shellLine exit.command = line) ∧
      ∀ (other : Host) (d : Call) (u : World), u.Logs ((other.run d).run u).2 line ∨
        u.Shows ((other.run d).run u).2 line → d.argv = c.argv := by
  refine ⟨Text.shellLine c.argv, host.logs_run hargv w, host.shows_run hargv w,
    Shell.Words.words?_shellLine c.argv, fun p exit hfailed hexit => ?_, fun other d u => ?_⟩
  · rw [command_of_toolExit hargv hfailed hexit]
  · exact argv_eq_of_logs_or_shows

/-- A command with arguments of every kind, an empty one among them. -/
def quotedCall : Call where
  stage := .symbols
  argv := ["/opt/my tools/nm", "", "it's $HOME\\", "\"a\"\n\tb", "naïve☃", "-j4"]

/-- A command that has one argument more, and the same characters in its arguments but
    for a blank. -/
def splitCall : Call where
  stage := .symbols
  argv := ["/opt/my tools/nm", "", "it's", "$HOME\\", "\"a\"\n\tb", "naïve☃", "-j4"]

theorem run_shows_command_quoted :
    quotedCall.argv ≠ [] ∧ ∃ line,
      mixedWorld.Logs ((idleBuilder.host.run quotedCall).run mixedWorld).2 line ∧
      Shell.Words.words? line.toList
        = some ["/opt/my tools/nm", "", "it's $HOME\\", "\"a\"\n\tb", "naïve☃", "-j4"] ∧
      ¬ mixedWorld.Logs ((idleBuilder.host.run splitCall).run mixedWorld).2 line := by
  have hargv : quotedCall.argv ≠ [] := List.cons_ne_nil _ _
  obtain ⟨line, hlogs, -, hwords, -, hothers⟩ :=
    idleBuilder.host.run_shows_command hargv mixedWorld
  refine ⟨hargv, line, hlogs, hwords, fun hsame => ?_⟩
  exact absurd (hothers idleBuilder.host splitCall mixedWorld (.inl hsame)) (by decide)

end Host

end AheadOfTime
