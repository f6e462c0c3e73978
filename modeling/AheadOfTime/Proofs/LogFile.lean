import AheadOfTime.Proofs.JsonReader
import AheadOfTime.Proofs.Printing
import AheadOfTime.Proofs.Slices

/-! # The log file

    A log is written as a text, each of its records on a line of its own, and with
    `--log-file` this is done at the end of the program, whatever came of the build.  The
    text of a value has no line ends in it (`Json.isPlain_of_mem_render`), so the lines
    of the file are those texts, and they are read back one by one.

    An empty log is no exception to the line end behind the last record, and its text is
    one line without a record on it.  `run_logs` says when the file can be read, which
    is when the build began. -/

namespace AheadOfTime

/-! ## Texts on lines of their own -/

namespace Text

/-- A line feed ends the line before it. -/
theorem lines_plain_append {line : List Char} (h : ∀ c ∈ line, isLineEnd c = false)
    (more : List Char) : lines (line ++ '\n' :: more) = line :: lines more := by
  have hkeep : ∀ c ∈ line, (!isLineEnd c) = true := fun c hc => by
    rw [h c hc]
    rfl
  rw [lines_eq (List.append_ne_nil_of_right_ne_nil line (List.cons_ne_nil '\n' more)), firstLine,
    fromEnd, List.takeWhile_append_of_pos hkeep, List.dropWhile_append_of_pos hkeep]
  show (line ++ []) :: lines more = _
  rw [List.append_nil]

/-- Texts without line ends are the lines of the text that has each of them on a line. -/
theorem lines_flatMap {texts : List (List Char)}
    (h : ∀ text ∈ texts, ∀ c ∈ text, isLineEnd c = false) :
    lines (texts.flatMap fun text => text ++ ['\n']) = texts := by
  induction texts with
  | nil => rfl
  | cons text later ih =>
      obtain ⟨htext, hlater⟩ := List.forall_mem_cons.mp h
      rw [List.flatMap_cons, List.append_assoc, List.singleton_append, lines_plain_append htext,
        ih hlater]

end Text

/-! ## Values are written on one line -/

namespace Json

/-- Whether the value is an object. -/
def isObject : Json → Bool
  | obj _ => true
  | _ => false

/-- The characters of JSON texts: those that can be printed, and are not beyond ASCII. -/
def IsPlain (c : Char) : Prop := 0x20 ≤ c.toNat ∧ c.toNat ≤ 0x7E

instance : DecidablePred IsPlain := fun _ => inferInstanceAs (Decidable (_ ∧ _))

/-- No line ends within a JSON text. -/
theorem IsPlain.not_isLineEnd {c : Char} (h : IsPlain c) : Text.isLineEnd c = false := by
  obtain ⟨hlow, hhigh⟩ := h
  simp only [Text.isLineEnd, Bool.or_eq_false_iff, Bool.and_eq_false_iff, decide_eq_false_iff_not,
    beq_eq_false_iff_ne]
  omega

/-- Literals are spelled in characters of JSON texts. -/
theorem IsPlain.of_isLiteralChar {c : Char} (h : isLiteralChar c = true) : IsPlain c := by
  replace h : (((decide ('A'.val ≤ c.val ∧ c.val ≤ 'Z'.val) ||
      decide ('a'.val ≤ c.val) && decide (c.val ≤ 'z'.val)) ||
      decide ('0'.val ≤ c.val) && decide (c.val ≤ '9'.val)) || c ∈ ['-', '+', '.']) = true := h
  simp only [Bool.or_eq_true, Bool.and_eq_true, decide_eq_true_eq, List.mem_cons, List.not_mem_nil,
    or_false, UInt32.le_iff_toNat_le] at h
  rcases h with ((⟨hlow, hhigh⟩ | ⟨hlow, hhigh⟩) | ⟨hlow, hhigh⟩) | rfl | rfl | rfl
  · exact ⟨Nat.le_trans (by decide) hlow, Nat.le_trans hhigh (by decide)⟩
  · exact ⟨Nat.le_trans (by decide) hlow, Nat.le_trans hhigh (by decide)⟩
  · exact ⟨Nat.le_trans (by decide) hlow, Nat.le_trans hhigh (by decide)⟩
  all_goals decide

/-- So are texts with commas between them. -/
theorem isPlain_of_mem_commaSeparated {texts : List (List Char)}
    (h : ∀ text ∈ texts, ∀ c ∈ text, IsPlain c) : ∀ c ∈ commaSeparated texts, IsPlain c := by
  induction texts with
  | nil => exact List.forall_mem_nil _
  | cons text later ih =>
      obtain ⟨htext, hlater⟩ := List.forall_mem_cons.mp h
      cases later with
      | nil =>
          rw [commaSeparated_singleton]
          exact htext
      | cons next later =>
          rw [commaSeparated_cons_cons]
          refine List.forall_mem_append.mpr ⟨htext, List.forall_mem_cons.mpr ⟨by decide, ?_⟩⟩
          exact List.forall_mem_cons.mpr ⟨by decide, ih hlater⟩

/-- What stands for a character is spelled that way too. -/
theorem isPlain_of_mem_escapedChar (c : Char) : ∀ d ∈ escapedChar c, IsPlain d := by
  have hescape : ∀ n, ∀ d ∈ unitEscape n, IsPlain d := by
    intro n
    refine List.forall_mem_cons.mpr ⟨by decide, List.forall_mem_cons.mpr ⟨by decide, ?_⟩⟩
    exact Text.forall_mem_hex IsPlain (by decide) 4 n
  dsimp only [escapedChar]
  split_ifs with _ _ _ _ _ _ _ hplain
  -- the seven characters with an escape of their own
  iterate 7 exact List.all_iff_forall_prop.mp (by decide)
  · exact List.forall_mem_singleton.mpr hplain
  · exact hescape _
  · exact List.forall_mem_append.mpr ⟨hescape _, hescape _⟩

/-- So is a string. -/
theorem isPlain_of_mem_renderString (s : String) : ∀ c ∈ renderString s, IsPlain c := by
  refine List.forall_mem_cons.mpr ⟨by decide, List.forall_mem_append.mpr ⟨?_, ?_⟩⟩
  · intro c hc
    obtain ⟨d, -, hd⟩ := List.mem_flatMap.mp hc
    exact isPlain_of_mem_escapedChar d c hd
  · exact List.forall_mem_singleton.mpr (by decide)

/-- So is a field. -/
theorem isPlain_of_mem_renderField {field : String × List Char} (h : ∀ c ∈ field.2, IsPlain c) :
    ∀ c ∈ renderField field, IsPlain c := by
  refine List.forall_mem_append.mpr ⟨isPlain_of_mem_renderString field.1, ?_⟩
  exact List.forall_mem_cons.mpr ⟨by decide, List.forall_mem_cons.mpr ⟨by decide, h⟩⟩

/-- **The text of a value** is one line of ASCII. -/
theorem isPlain_of_mem_render (v : Json) : ∀ c ∈ v.render, IsPlain c := by
  -- arrays and objects differ in their brackets
  have hbrackets : ∀ first last : Char, IsPlain first → IsPlain last → ∀ texts : List (List Char),
      (∀ text ∈ texts, ∀ c ∈ text, IsPlain c) →
      ∀ c ∈ first :: (commaSeparated texts ++ [last]), IsPlain c := by
    intro first last hfirst hlast texts htexts
    refine List.forall_mem_cons.mpr ⟨hfirst, List.forall_mem_append.mpr ⟨?_, ?_⟩⟩
    · exact isPlain_of_mem_commaSeparated htexts
    · exact List.forall_mem_singleton.mpr hlast
  induction v using Json.induct with
  | hnull => exact List.all_iff_forall_prop.mp (by decide)
  | hbool value => cases value <;> exact List.all_iff_forall_prop.mp (by decide)
  | hnum value =>
      intro c hc
      exact IsPlain.of_isLiteralChar (isLiteralChar_of_mem_toString c hc)
  | hstr value => exact isPlain_of_mem_renderString value
  | harr elements ih =>
      rw [render, renderElements_eq]
      exact hbrackets '[' ']' (by decide) (by decide) _ (List.forall_mem_map.mpr ih)
  | hobj fields ih =>
      rw [render_obj]
      refine hbrackets '{' '}' (by decide) (by decide) _ ?_
      rw [List.map_map]
      refine List.forall_mem_map.mpr fun field hfield => isPlain_of_mem_renderField ?_
      exact ih field (List.mem_mergeSort.mp hfield)

end Json

/-! ## Logs are read back -/

/-- The record as it is written: an object with its fields in the order of their
    keys. -/
def Record.object (r : Record) : Json := r.toJson.ordered

namespace Log

/-- The objects on the lines of a text, if there is one on each. -/
def objects? (text : String) : Option (List Json) :=
  (Text.lines text.toList).mapM fun line => (Json.read? line).filter Json.isObject

/-- **An empty log** is written as a line without an object. -/
theorem objects?_jsonLines_nil : objects? (jsonLines []) = none := rfl

/-- A log is written as one line for each of its records. -/
theorem toList_jsonLines {log : Log} (h : log ≠ []) :
    log.jsonLines.toList
      = (log.map fun r => r.toJson.render).flatMap fun text => text ++ ['\n'] := by
  induction log with
  | nil => exact absurd rfl h
  | cons r later ih =>
      cases later with
      | nil => simp [jsonLines, Json.text]
      | cons next later =>
          have hcons : jsonLines (r :: next :: later)
              = r.toJson.text ++ "\n" ++ jsonLines (next :: later) := by
            simp [jsonLines, String.intercalate_cons_cons, String.append_assoc]
          rw [hcons, String.toList_append, ih (List.cons_ne_nil next later), String.toList_append,
            Json.text, String.toList_ofList]
          rfl

/-- The lines of a log with records are the texts of their objects. -/
theorem lines_jsonLines {log : Log} (h : log ≠ []) :
    Text.lines log.jsonLines.toList = log.map fun r => r.toJson.render := by
  rw [toList_jsonLines h]
  refine Text.lines_flatMap (List.forall_mem_map.mpr fun r _ c hc => ?_)
  exact (Json.isPlain_of_mem_render _ c hc).not_isLineEnd

/-- **A log with records** is written as its records, one on each line. -/
theorem objects?_jsonLines {log : Log} (h : log ≠ []) :
    objects? log.jsonLines = some (log.map Record.object) := by
  rw [objects?, lines_jsonLines h]
  clear h
  induction log with
  | nil => rfl
  | cons r later ih =>
      rw [List.map_cons, List.mapM_cons, ih, Json.read?_render]
      rfl

/-- **The lines are read back** exactly if there is a record at all. -/
theorem objects?_jsonLines_eq_iff (log : Log) :
    objects? log.jsonLines = some (log.map Record.object) ↔ log ≠ [] := by
  refine ⟨?_, objects?_jsonLines⟩
  rintro hread rfl
  exact nomatch objects?_jsonLines_nil.symm.trans hread

end Log

/-! ## The log of the program -/

namespace CommandLine

variable {a : Arguments} {host : Host} {env : Environment} {machine : String} {w : World}

namespace Arguments

/-- The arguments make a request that passes its checks, and the tools are found. -/
def Begins (a : Arguments) (host : Host) (env : Environment) (machine : String) (w : World) :
    Prop :=
  ∃ r, a.request machine = .ok r ∧ (builder host env).Begins r w

/-- A build that begins writes into the log, and another one does not. -/
theorem log_build (a : Arguments) (host : Host) (env : Environment) (machine : String)
    (w : World) : ∃ own, ((a.build host env machine).run w).2.log = w.log ++ own ∧
      (own = [] ↔ ¬ a.Begins host env machine w) := by
  unfold Begins
  rw [a.build_eq]
  rcases hrequest : a.request machine with e | r
  · exact ⟨[], (List.append_nil _).symm, iff_of_true rfl fun ⟨r, hr, _⟩ => nomatch hr⟩
  · obtain ⟨hlog, hown⟩ := (builder host env).log_run r w
    refine ⟨_, hlog, hown.trans (not_congr ?_)⟩
    simp

end Arguments

/-- **The log file.**  If the program has begun with an empty log and ends with a
    status, and the log was asked for, it has been written.  It has one object on each of
    its lines and these are the records, just when the build began; and else there are
    no records, and the file has a line and nothing on it. -/
theorem run_logs {argv : List String} (hparse : Arguments.parse argv = .ok a)
    (hasked : a.logFile ≠ none) (hlog : w.log = [])
    (hstatus : ∀ fault, ((run host env machine argv).run w).1.ending ≠ .fault fault) :
    ∃ path text executable, a.logFile = some (.value path) ∧
      ((run host env machine argv).run w).2.files.status path = .ok (.ofText text executable) ∧
      (Log.objects? text = some (((run host env machine argv).run w).2.log.map Record.object) ↔
        a.Begins host env machine w) ∧
      (¬ a.Begins host env machine w →
        ((run host env machine argv).run w).2.log = [] ∧ text = "\n") := by
  have hrun : run host env machine argv = a.run host env machine := by
    rw [run, hparse]
  rw [hrun, a.run_eq] at hstatus ⊢
  -- the log is empty in front, so it is what the build wrote
  obtain ⟨own, hown, hbegins⟩ := a.log_build host env machine w
  obtain ⟨fault, files, hconclude, hwritten⟩ :=
    a.exists_conclude ((a.build host env machine).run w).2
  rw [hlog, List.nil_append] at hown
  rw [hconclude] at hstatus ⊢
  cases fault with
  | some fault => exact absurd rfl (hstatus fault)
  | none =>
      obtain ⟨path, executable, hpath, hfile⟩ := hwritten rfl hasked
      refine ⟨path, _, executable, hpath, hfile, ?_, fun hnot => ?_⟩
      · dsimp only
        rw [Log.objects?_jsonLines_eq_iff, hown, ne_eq, hbegins, not_not]
      · dsimp only
        rw [hown, hbegins.mpr hnot]
        exact ⟨rfl, rfl⟩

/-- The command line for the objects of sources, with the log in a file. -/
def loggedLine (sources : List String) : List String :=
  ["-c", "--log-file", "log.jsonl"] ++ sources

/-- What the line asks for. -/
def loggedArguments (sources : List String) : Arguments where
  files := sources.map Path.ofString
  compileOnly := true
  logFile := some (.value (.ofString "log.jsonl"))

/-- What comes of it where the front end refuses every source. -/
def loggedOutcome (sources : List String) : Outcome × World :=
  (run refusingBuilder.host [("AOTC_PREFIX", "r")] "x86_64" (loggedLine sources)).run equippedWorld

/-- A source that is refused leaves its records in the log file.  Without one there is
    nothing to build, and the file has a line without a record. -/
theorem run_logs_nothing :
    (Arguments.parse (loggedLine ["a.rb"]) = .ok (loggedArguments ["a.rb"]) ∧
      Arguments.parse (loggedLine []) = .ok (loggedArguments []) ∧
      (∀ sources, (loggedArguments sources).logFile ≠ none) ∧ equippedWorld.log = [] ∧
      (∀ fault, (loggedOutcome ["a.rb"]).1.ending ≠ .fault fault) ∧
      ∀ fault, (loggedOutcome []).1.ending ≠ .fault fault) ∧
    (∃ path text executable,
      (loggedOutcome ["a.rb"]).2.files.status path = .ok (.ofText text executable) ∧
      Log.objects? text = some ((loggedOutcome ["a.rb"]).2.log.map Record.object) ∧
      (loggedOutcome ["a.rb"]).2.log.length = 5) ∧
    ∃ path executable,
      (loggedOutcome []).2.files.status path = .ok (.ofText "\n" executable) ∧
      Log.objects? "\n" ≠ some ((loggedOutcome []).2.log.map Record.object) := by
  have hsource : Arguments.parse (loggedLine ["a.rb"]) = .ok (loggedArguments ["a.rb"]) :=
    eq_ok_of_toOption (by decide +kernel)
  have hnothing : Arguments.parse (loggedLine []) = .ok (loggedArguments []) :=
    eq_ok_of_toOption (by decide +kernel)
  have hasked : ∀ sources, (loggedArguments sources).logFile ≠ none := fun _ => nofun
  have hending : (loggedOutcome ["a.rb"]).1.ending = .status 1 := by decide +kernel
  have hending' : (loggedOutcome []).1.ending = .status 1 := by decide +kernel
  have hlength : (loggedOutcome ["a.rb"]).2.log.length = 5 := by decide +kernel
  have hstatus : ∀ fault, (loggedOutcome ["a.rb"]).1.ending ≠ .fault fault := by
    rw [hending]
    exact nofun
  have hstatus' : ∀ fault, (loggedOutcome []).1.ending ≠ .fault fault := by
    rw [hending']
    exact nofun
  refine ⟨⟨hsource, hnothing, hasked, rfl, hstatus, hstatus'⟩, ?_, ?_⟩
  · obtain ⟨path, text, executable, -, hfile, hread, hempty⟩ :=
      run_logs hsource (hasked _) rfl hstatus
    refine ⟨path, text, executable, hfile, hread.mpr ?_, hlength⟩
    refine Classical.byContradiction fun hnot => ?_
    rw [loggedOutcome, (hempty hnot).1] at hlength
    exact nomatch hlength
  · obtain ⟨path, text, executable, -, hfile, hread, hempty⟩ :=
      run_logs hnothing (hasked _) rfl hstatus'
    have hnot : ¬ (loggedArguments []).Begins refusingBuilder.host [("AOTC_PREFIX", "r")] "x86_64"
        equippedWorld := by
      have hrequest : ((loggedArguments []).request "x86_64").toOption = none := by decide +kernel
      rintro ⟨r, hr, -⟩
      rw [hr] at hrequest
      exact nomatch hrequest
    obtain ⟨-, rfl⟩ := hempty hnot
    exact ⟨path, executable, hfile, fun hobjects => hnot (hread.mp hobjects)⟩

end CommandLine

end AheadOfTime
