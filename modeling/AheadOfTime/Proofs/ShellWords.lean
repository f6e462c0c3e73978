import AheadOfTime.Text.Quoted
import Mathlib.Data.Bool.AllAny

/-! # The words of a command line

    A shell cuts a line into words where there are blanks that no quotes guard, and
    takes the quotes away.  `words?` does that one character at a time, by the rules
    of POSIX for quoting.  A character that would mean more to a shell than itself, as
    the start of an expansion, an operator or a comment, is refused where no quotes
    guard it, so a line that is read at all is one command and means its words.

    `words?_shellLine` says that the line written for an argument vector is read as
    that vector, whatever is in it. -/

namespace AheadOfTime.Shell.Words

/-! ## Reading a line -/

/-- What guards the next character. -/
inductive Guard where
  | none
  | single
  | double
  | backslash
  /-- A backslash between double quotes. -/
  | doubleBackslash
  deriving DecidableEq, Repr

/-- A line half read: the words that are complete, the one that has been started, if
    any, and what guards the next character. -/
structure Reading where
  complete : List (List Char) := []
  word : Option (List Char) := none
  guard : Guard := .none
  deriving DecidableEq, Repr

/-- The characters that mean something where nothing guards them, apart from blanks,
    quotes and the backslash. -/
def specials : List Char := "|&;<>()$\x60*?[#~\n".toList

namespace Reading

/-- The word goes on, or starts. -/
def add (r : Reading) (cs : List Char) : Reading := { r with word := some (r.word.getD [] ++ cs) }

/-- The effect of the next character. -/
def step (r : Reading) (c : Char) : Option Reading :=
  match r.guard with
  | .none =>
    if c = ' ' ∨ c = '\t' then
      some { r with complete := r.complete ++ r.word.toList, word := none }
    else if c = '\'' then some { r.add [] with guard := .single }
    else if c = '"' then some { r.add [] with guard := .double }
    else if c = '\\' then some { r with guard := .backslash }
    else if c ∈ specials then none
    else some (r.add [c])
  | .single => some (if c = '\'' then { r with guard := .none } else r.add [c])
  | .double =>
    if c = '"' then some { r with guard := .none }
    else if c = '\\' then some { r with guard := .doubleBackslash }
    else if c = '$' ∨ c = '\x60' then none
    else some (r.add [c])
  | .backslash =>
    -- a backslash at the end of a line joins it with the next one
    some { (if c = '\n' then r else r.add [c]) with guard := .none }
  | .doubleBackslash =>
    some { (if c = '\n' then r else if c ∈ "$\x60\"\\".toList then r.add [c] else r.add ['\\', c])
      with guard := .double }

/-- The words of a line that ends here, if no quotes are open. -/
def finish (r : Reading) : Option (List String) :=
  match r.guard with
  | .none => some ((r.complete ++ r.word.toList).map String.ofList)
  | _ => none

end Reading

/-- **The words of a line** as a shell reads it. -/
def words? (line : List Char) : Option (List String) :=
  (line.foldlM Reading.step {}).bind Reading.finish

/-- Quoted and other parts without a blank between them are one word, which may be
    empty. -/
example : words? "a'b c'\"\\\"d\\e\" \\'\t''".toList = some ["ab c\"d\\e", "'", ""] := by decide

/-! ## Words that are written -/

variable {complete : List (List Char)} {word : List Char} {c : Char}

/-- A character that needs no quotes stands for itself. -/
theorem step_of_isPlainInShell (h : Text.isPlainInShell c = true) (r : Reading)
    (hguard : r.guard = .none) : r.step c = some (r.add [c]) := by
  have hothers : ∀ d ∈ ' ' :: '\t' :: '\'' :: '"' :: '\\' :: specials,
      Text.isPlainInShell d = false := List.all_iff_forall_prop.mp (by decide)
  have hc : c ∉ ' ' :: '\t' :: '\'' :: '"' :: '\\' :: specials := fun hin =>
    absurd h (by rw [hothers c hin]; decide)
  simp only [List.mem_cons, not_or] at hc
  obtain ⟨hblank, htab, hsingle, hdouble, hbackslash, hspecial⟩ := hc
  simp only [Reading.step, hguard, hblank, htab, hsingle, hdouble, hbackslash, hspecial, or_self,
    if_false]

theorem read_plain {cs : List Char} (h : ∀ c ∈ cs, Text.isPlainInShell c = true) :
    cs.foldlM Reading.step ⟨complete, some word, .none⟩
      = some ⟨complete, some (word ++ cs), .none⟩ := by
  induction cs generalizing word with
  | nil => rw [List.append_nil, List.foldlM_nil]; rfl
  | cons c later ih =>
      obtain ⟨hc, hlater⟩ := List.forall_mem_cons.mp h
      rw [List.foldlM_cons, step_of_isPlainInShell hc _ rfl]
      show later.foldlM Reading.step ⟨complete, some (word ++ [c]), .none⟩ = _
      rw [ih hlater, List.append_assoc]
      rfl

theorem step_of_single (h : c ≠ '\'') (r : Reading) (hguard : r.guard = .single) :
    r.step c = some (r.add [c]) := by
  simp only [Reading.step, hguard, h, if_false]

/-- Between single quotes all characters stand for themselves but the quote, for which
    the quotes end and begin again. -/
theorem read_singleQuotedChar (c : Char) :
    (Text.singleQuotedChar c).foldlM Reading.step ⟨complete, some word, .single⟩
      = some ⟨complete, some (word ++ [c]), .single⟩ := by
  unfold Text.singleQuotedChar
  by_cases hc : c = '\''
  · rw [if_pos hc, hc]
    show some (Reading.mk complete (some (word ++ [] ++ ['\''] ++ [])) .single) = _
    rw [List.append_nil, List.append_nil]
  · rw [if_neg hc, List.foldlM_cons, step_of_single hc _ rfl]
    rfl

theorem read_singleQuotedChars (cs : List Char) :
    (cs.flatMap Text.singleQuotedChar).foldlM Reading.step ⟨complete, some word, .single⟩
      = some ⟨complete, some (word ++ cs), .single⟩ := by
  induction cs generalizing word with
  | nil => rw [List.append_nil]; rfl
  | cons c later ih =>
      rw [List.flatMap_cons, List.foldlM_append, read_singleQuotedChar]
      show (later.flatMap Text.singleQuotedChar).foldlM Reading.step _ = _
      rw [ih, List.append_assoc]
      rfl

/-- **A word is read** as it was before it was written. -/
theorem read_shellWord (text : String) :
    (Text.shellWord text).toList.foldlM Reading.step ⟨complete, none, .none⟩
      = some ⟨complete, some text.toList, .none⟩ := by
  unfold Text.shellWord
  split
  · rename_i hplain
    obtain ⟨hne, hall⟩ := hplain
    obtain ⟨c, later, hcons⟩ := List.exists_cons_of_ne_nil hne
    have hchars := List.all_eq_true.mp hall
    rw [hcons] at hchars ⊢
    obtain ⟨hc, hlater⟩ := List.forall_mem_cons.mp hchars
    rw [List.foldlM_cons, step_of_isPlainInShell hc _ rfl]
    exact read_plain hlater
  · rw [String.toList_ofList, Text.singleQuoted, List.foldlM_cons]
    show (text.toList.flatMap Text.singleQuotedChar ++ ['\'']).foldlM Reading.step
      ⟨complete, some [], .single⟩ = _
    rw [List.foldlM_append, read_singleQuotedChars]
    rfl

/-! ## Lines that are written -/

theorem shellLine_cons_cons (word next : String) (later : List String) :
    (Text.shellLine (word :: next :: later)).toList
      = (Text.shellWord word).toList ++ ' ' :: (Text.shellLine (next :: later)).toList := by
  simp [Text.shellLine, String.intercalate_cons_cons]

/-- A line is read as its words, of which the last one is still open. -/
theorem read_shellLine (argv : List String) (last : String) :
    (Text.shellLine (argv ++ [last])).toList.foldlM Reading.step ⟨complete, none, .none⟩
      = some ⟨complete ++ argv.map String.toList, some last.toList, .none⟩ := by
  induction argv generalizing complete with
  | nil =>
      rw [List.map_nil, List.append_nil]
      exact read_shellWord last
  | cons word later ih =>
      obtain ⟨next, more, hcons⟩ := List.exists_cons_of_ne_nil
        (List.append_ne_nil_of_right_ne_nil later (List.cons_ne_nil last []))
      rw [hcons] at ih
      rw [List.cons_append, hcons, shellLine_cons_cons, List.foldlM_append, read_shellWord]
      show (Text.shellLine (next :: more)).toList.foldlM Reading.step
        ⟨complete ++ [word.toList], none, .none⟩ = _
      rw [ih, List.append_assoc]
      rfl

/-- **A line is read as its words**, whatever is in them. -/
theorem words?_shellLine (argv : List String) :
    words? (Text.shellLine argv).toList = some argv := by
  rcases List.eq_nil_or_concat argv with rfl | ⟨before, last, rfl⟩
  · rfl
  · rw [List.concat_eq_append, words?, read_shellLine]
    show some (([] ++ before.map String.toList ++ [last.toList]).map String.ofList) = _
    simp [Function.comp_def]

end AheadOfTime.Shell.Words
