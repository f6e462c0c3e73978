import AheadOfTime.Proofs.LogFile

/-! # Records are read back

    The text of a log has the object of each record on a line (`Log.lines_jsonLines`).
    Here the lines are decoded, and the records are there again.

    Objects are written with their fields in the order of the keys, which need not be
    the one that they had.  `Json.Same` says of two values that they differ in such
    orders at most, and a value and its ordered form do no more (`Json.same_ordered`).
    The decoder looks fields up by their keys, so it finds the same in any order
    (`Record.ofFields?_of_perm`).  `Log.jsonLines_read_back` is about every log with
    records, whatever texts and values they hold. -/

namespace AheadOfTime

/-- Different keys are looked up alike in any order. -/
theorem lookup_eq_of_perm {α β : Type} [BEq α] [LawfulBEq α] {l m : List (α × β)} (h : l.Perm m)
    (hkeys : (l.map Prod.fst).Nodup) (key : α) : l.lookup key = m.lookup key := by
  induction h with
  | nil => rfl
  | cons entry _ ih =>
      rw [List.lookup_cons, List.lookup_cons, ih (List.nodup_cons.mp hkeys).2]
  | swap entry next later =>
      -- at most one of the two has the key, so either may be looked at first
      have hne : next.1 ≠ entry.1 := fun heq =>
        (List.nodup_cons.mp hkeys).1 (heq ▸ List.mem_cons_self)
      rw [List.lookup_cons, List.lookup_cons, List.lookup_cons, List.lookup_cons]
      rcases hkey : key == entry.1
      · rfl
      · have hother : (key == next.1) = false :=
          beq_false_of_ne fun heq => hne (heq ▸ beq_iff_eq.mp hkey)
        rw [hother]
  | trans h _ ih ih' => rw [ih hkeys, ih' ((h.map Prod.fst).nodup_iff.mp hkeys)]

namespace Json

/-! ## Values that differ in the order of fields -/

/-- The values are the same but for the order of the fields in objects.  A part may be
    replaced in its place, and the fields of an object may be moved. -/
inductive Same : Json → Json → Prop
  | refl (v : Json) : Same v v
  | trans {u v w : Json} : Same u v → Same v w → Same u w
  | element (before after : List Json) {v w : Json} : Same v w →
      Same (arr (before ++ v :: after)) (arr (before ++ w :: after))
  | field (before : List (String × Json)) (key : String) (after : List (String × Json))
      {v w : Json} : Same v w →
      Same (obj (before ++ (key, v) :: after)) (obj (before ++ (key, w) :: after))
  | order {fields fields' : List (String × Json)} : fields.Perm fields' →
      Same (obj fields) (obj fields')

/-- The fields of an object, and those of all values in them, in the order of their
    keys. -/
def orderedObject (fields : List (String × Json)) : List (String × Json) :=
  (fields.mergeSort keyLe).map fun field => (field.1, field.2.ordered)

theorem ordered_eq_orderedObject (fields : List (String × Json)) :
    (obj fields).ordered = obj (orderedObject fields) := ordered_obj fields

namespace Same

/-- Elements may be replaced one after the other. -/
theorem elements {f : Json → Json} {later : List Json} (h : ∀ v ∈ later, Same v (f v))
    (before : List Json) : Same (arr (before ++ later)) (arr (before ++ later.map f)) := by
  induction later generalizing before with
  | nil => exact .refl _
  | cons v later ih =>
      obtain ⟨hv, hlater⟩ := List.forall_mem_cons.mp h
      have hrest := ih hlater (before ++ [f v])
      rw [List.append_assoc, List.append_assoc] at hrest
      exact (Same.element before later hv).trans hrest

/-- The values of fields may be replaced one after the other. -/
theorem fields {f : Json → Json} {later : List (String × Json)}
    (h : ∀ field ∈ later, Same field.2 (f field.2)) (before : List (String × Json)) :
    Same (obj (before ++ later))
      (obj (before ++ later.map fun field => (field.1, f field.2))) := by
  induction later generalizing before with
  | nil => exact .refl _
  | cons field later ih =>
      obtain ⟨hfield, hlater⟩ := List.forall_mem_cons.mp h
      have hrest := ih hlater (before ++ [(field.1, f field.2)])
      rw [List.append_assoc, List.append_assoc] at hrest
      exact (Same.field before field.1 later hfield).trans hrest

end Same

/-- **Putting fields in order** changes nothing else. -/
theorem same_ordered (v : Json) : Same v v.ordered := by
  induction v using Json.induct with
  | hnull => exact .refl _
  | hbool value => exact .refl _
  | hnum value => exact .refl _
  | hstr value => exact .refl _
  | harr elements ih =>
      rw [ordered, orderedElements_eq]
      exact .elements ih []
  | hobj fields ih =>
      rw [ordered_obj]
      exact (Same.fields ih []).trans (.order ((List.mergeSort_perm fields keyLe).symm.map _))

/-! ## Decoding -/

/-- The text that the value is. -/
def string? : Json → Option String
  | str s => some s
  | _ => none

/-- The text that the value is, or none for null. -/
def stringOrNull? : Json → Option (Option String)
  | null => some none
  | str s => some (some s)
  | _ => none

/-- The fields that the value has as an object. -/
def object? : Json → Option (List (String × Json))
  | obj fields => some fields
  | _ => none

end Json

namespace Record

/-- The record with these fields, which come in any order: those that each record has,
    perhaps `extra`, and no others. -/
def ofFields? (fields : List (String × Json)) : Option Record := do
  let level ← (fields.lookup "level").bind Json.string?
  let operation ← (fields.lookup "operation").bind Json.string?
  let input ← (fields.lookup "input").bind Json.stringOrNull?
  let arch ← (fields.lookup "arch").bind Json.stringOrNull?
  let stage ← (fields.lookup "stage").bind Json.stringOrNull?
  let tool ← (fields.lookup "tool").bind Json.stringOrNull?
  let message ← (fields.lookup "message").bind Json.string?
  let extra ← ((fields.lookup "extra").map Json.object?).elim (some none) (Option.map some)
  guard (fields.length = 7 + extra.toList.length)
  return { level, operation, input, arch, stage, tool, message, extra }

/-- **The order of fields** does not matter to the decoder. -/
theorem ofFields?_of_perm {fields fields' : List (String × Json)} (h : fields.Perm fields')
    (hkeys : (fields.map Prod.fst).Nodup) : ofFields? fields = ofFields? fields' := by
  have hlookup := lookup_eq_of_perm h hkeys
  simp only [ofFields?, hlookup, h.length_eq]

/-- The fields of the record's object, in the order in which they are made. -/
def fields (r : Record) : List (String × Json) := r.toJson.object?.getD []

theorem toJson_eq (r : Record) : r.toJson = .obj r.fields := rfl

theorem nodup_keys (r : Record) : (r.fields.map Prod.fst).Nodup := by
  have hall : ["level", "operation", "input", "arch", "stage", "tool", "message",
      "extra"].Nodup := by decide
  obtain ⟨level, operation, input, arch, stage, tool, message, extra⟩ := r
  cases extra with
  | none => exact hall.sublist (List.sublist_append_left _ ["extra"])
  | some extra => exact hall

/-- **Decoding undoes the making of fields.** -/
theorem ofFields?_fields (r : Record) : ofFields? r.fields = some r := by
  obtain ⟨level, operation, input, arch, stage, tool, message, extra⟩ := r
  have hnull : ∀ s : Option String, (Json.ofOption s).stringOrNull? = some s := by
    rintro (_ | s)
    · rfl
    · rfl
  -- with extra fields or without them, each field is found under its key
  cases extra with
  | none => simp [ofFields?, fields, toJson, Json.object?, List.lookup_cons, hnull, Json.string?]
  | some extra => simp [ofFields?, fields, toJson, Json.object?, List.lookup_cons,
    hnull, Json.string?]

/-- The record with its extra fields, and those of all values in them, in the order of
    their keys. -/
def inOrder (r : Record) : Record := { r with extra := r.extra.map Json.orderedObject }

/-- Putting the fields in order puts the record in order, and sorts its fields. -/
theorem perm_fields_inOrder (r : Record) : (Json.orderedObject r.fields).Perm r.inOrder.fields := by
  have hnull : ∀ s : Option String, (Json.ofOption s).ordered = .ofOption s := by
    rintro (_ | s)
    · rfl
    · rfl
  -- the other fields have no fields in their values
  have hvalues : r.inOrder.fields = r.fields.map fun field => (field.1, field.2.ordered) := by
    obtain ⟨level, operation, input, arch, stage, tool, message, extra⟩ := r
    cases extra with
    | none => simp [fields, toJson, Json.object?, inOrder, hnull, Json.ordered]
    | some extra =>
        simp only [fields, toJson, Json.object?, inOrder, Option.map_some, Option.toList_some,
          Option.getD_some, List.cons_append, List.nil_append, List.map_cons, List.map_nil, hnull,
          Json.ordered_eq_orderedObject]
        rfl
  rw [hvalues]
  exact (List.mergeSort_perm _ _).map _

/-- **A record is decoded** from its object with the fields in order. -/
theorem ofFields?_orderedObject (r : Record) :
    ofFields? (Json.orderedObject r.fields) = some r.inOrder := by
  have hperm := r.perm_fields_inOrder
  rw [ofFields?_of_perm hperm ((hperm.map Prod.fst).nodup_iff.mpr r.inOrder.nodup_keys),
    ofFields?_fields]

/-- The record that is written on a line. -/
def ofLine? (line : List Char) : Option Record :=
  ((Json.read? line).bind Json.object?).bind ofFields?

/-- The line is made of ASCII and holds no line end, and it is JSON for the record, but
    for the order of the extra fields and of those in their values. -/
structure IsOn (r : Record) (line : List Char) : Prop where
  ascii : ∀ c ∈ line, c.toNat < 0x80
  unbroken : ∀ c ∈ line, Text.isLineEnd c = false
  decoded : ∃ extra, ofLine? line = some { r with extra } ∧
    Option.Rel (fun fields read => Json.Same (.obj fields) (.obj read)) r.extra extra

/-- **A record is on the line** that is written for it. -/
theorem isOn_render (r : Record) : r.IsOn r.toJson.render where
  ascii := by
    intro c hc
    have hplain := (Json.isPlain_of_mem_render _ c hc).2
    omega
  unbroken := fun c hc => (Json.isPlain_of_mem_render _ c hc).not_isLineEnd
  decoded := by
    refine ⟨r.inOrder.extra, ?_, ?_⟩
    · rw [ofLine?, Json.read?_render, toJson_eq, Json.ordered_eq_orderedObject]
      exact r.ofFields?_orderedObject
    · show Option.Rel _ r.extra (r.extra.map Json.orderedObject)
      cases r.extra with
      | none => exact .none
      | some extra =>
          refine .some ?_
          rw [← Json.ordered_eq_orderedObject]
          exact Json.same_ordered _

end Record

namespace Log

/-- **A log is read back.**  Wherever a log with records is written, the file has a text
    that ends with a line feed.  Its lines are as many as the records, and on each of
    them is the record that comes at this place. -/
theorem jsonLines_read_back {log : Log} (h : log ≠ []) :
    (∀ (path : Path) (w v : World), w.log = log →
      (CommandLine.writeLog path).run w = (.ok (), v) →
      ∃ executable, v.files.status path = .ok (.ofText log.jsonLines executable)) ∧
    log.jsonLines.toList.getLast? = some '\n' ∧
    List.Forall₂ Record.IsOn log (Text.lines log.jsonLines.toList) := by
  refine ⟨fun path w v hlog hrun => ?_, ?_, ?_⟩
  · obtain ⟨answer, files, hanswer, hwritten⟩ := CommandLine.Arguments.run_writeLog path w
    rw [hrun] at hanswer
    obtain ⟨hok, rfl⟩ := Prod.mk.inj hanswer
    rcases answer with fault | _
    · exact nomatch hok
    · exact hlog ▸ hwritten rfl
  · rw [jsonLines, String.toList_append]
    exact List.getLast?_concat
  · rw [lines_jsonLines h, List.forall₂_map_right_iff]
    exact List.forall₂_same.mpr fun r _ => r.isOn_render

/-- Records with line ends of all kinds, characters beyond ASCII, and values in values. -/
def hostileLog : Log :=
  [{ operation := "invoke", stage := some "link", tool := some "l\x1cd\u2028"
     message := "'a\nb' \u0085\x0b\"\\\x00" },
    { level := "error", operation := "scan", message := "𝄞 \x7f"
      extra := some [("z", .arr [.null, .num (-20), .obj [("é", .str "\r"), ("a", .bool true)]]),
        ("a", .str "")] }]

/-- A world with these records. -/
def hostileWorld : World := { equippedWorld with log := hostileLog }

theorem jsonLines_read_back_hostile :
    hostileLog ≠ [] ∧
      (∃ v executable, (CommandLine.writeLog (.ofString "log.jsonl")).run hostileWorld
          = (.ok (), v) ∧
        v.files.status (.ofString "log.jsonl") = .ok (.ofText hostileLog.jsonLines executable)) ∧
      ∃ first second, Text.lines hostileLog.jsonLines.toList = [first, second] ∧
        ∃ extra, Record.ofLine? second = some { hostileLog[1] with extra } := by
  have hne : hostileLog ≠ [] := List.cons_ne_nil _ _
  obtain ⟨hfile, -, hlines⟩ := jsonLines_read_back hne
  refine ⟨hne, ?_, ?_⟩
  · have hanswer : ((CommandLine.writeLog (.ofString "log.jsonl")).run hostileWorld).1 = .ok () :=
      eq_ok_of_toOption (by decide +kernel)
    have hrun : (CommandLine.writeLog (.ofString "log.jsonl")).run hostileWorld = (.ok (), _) :=
      Prod.ext hanswer rfl
    obtain ⟨executable, hstatus⟩ := hfile _ _ _ rfl hrun
    exact ⟨_, executable, hrun, hstatus⟩
  · generalize Text.lines hostileLog.jsonLines.toList = lines at hlines
    rcases hlines with _ | ⟨-, _ | ⟨hsecond, ⟨⟩⟩⟩
    obtain ⟨extra, hread, -⟩ := hsecond.decoded
    exact ⟨_, _, rfl, extra, hread⟩

end Log

end AheadOfTime
