import AheadOfTime.EntryPoint.Basic
import AheadOfTime.Text.Split
import AheadOfTime.Text.Utf8

/-! # The tokens of a C++ text

    What a C++ compiler makes of a text before it looks at the grammar: trigraphs
    are replaced, lines that end with a backslash are joined with the next, and what
    is left is cut into tokens, each as long as it can be, with the escapes of string
    literals decoded.

    `step` is the automaton that cuts, one character after the other, and `tokens?`
    the whole.  The lexer is one for texts without preprocessing: it gives no answer
    for what it does not read, which are directives, character literals, literals
    with a prefix or a suffix, escapes in hexadecimal or by a name, digraphs, and
    backslashes outside of literals.  Where it answers, it answers as C++ does.

    `run_append` puts the answers for the parts of a text together, and `Reads` is
    what has to be known of a list of lines for it to be part of a text. -/

namespace AheadOfTime.Cpp

open EntryPoint (isIdentifierStart isIdentifierPart)

/-- A token.  A word is an identifier, a keyword or an operator that is spelled out;
    which one it is depends on its spelling alone. -/
inductive Token where
  | word (spelling : List Char)
  | number (spelling : List Char)
  | string (bytes : List UInt8)
  | operator (spelling : List Char)
  deriving DecidableEq, Repr

/-- The token of that spelling, which is no string literal. -/
def Token.ofSpelling : List Char → Token
  | [] => .word []
  | c :: cs =>
    if isIdentifierStart c then .word (c :: cs)
    else if c.isDigit then .number (c :: cs)
    else .operator (c :: cs)

/-- Tokens as they are spelled, with a blank between them. -/
def spelled (s : String) : List Token := (Text.splitAt ' ' s.toList).map Token.ofSpelling

/-! ## Before the tokens -/

/-- What a trigraph with this last character stands for. -/
def trigraph? (c : Char) : Option Char :=
  match c with
  | '=' => some '#'
  | '/' => some '\\'
  | '\'' => some '^'
  | '(' => some '['
  | ')' => some ']'
  | '!' => some '|'
  | '<' => some '\x7b'
  | '>' => some '\x7d'
  | '-' => some '~'
  | _ => none

/-- The text with its trigraphs replaced. -/
def replaceTrigraphs : List Char → List Char
  | '?' :: '?' :: c :: rest =>
    match trigraph? c with
    | some d => d :: replaceTrigraphs rest
    | none => '?' :: replaceTrigraphs ('?' :: c :: rest)
  | c :: rest => c :: replaceTrigraphs rest
  | [] => []

/-- The text with every line that ends with a backslash joined with the next. -/
def spliceLines : List Char → List Char
  | '\\' :: '\n' :: rest => spliceLines rest
  | c :: rest => c :: spliceLines rest
  | [] => []

/-! ## Cutting into tokens -/

/-- White space between tokens. -/
def isSpace (c : Char) : Bool := [' ', '\t', '\n', '\x0b', '\x0c'].contains c

/-- The operators and punctuators. -/
def operators : List (List Char) := [
  ['\x7b'], ['\x7d'], ['['], [']'], ['('], [')'], [';'], [':'], ['.', '.', '.'], ['?'],
  [':', ':'], ['.'], ['.', '*'], ['-', '>'], ['-', '>', '*'], ['~'], ['!'], ['+'], ['-'], ['*'],
  ['/'], ['%'], ['^'], ['&'], ['|'], ['='], ['+', '='], ['-', '='], ['*', '='], ['/', '='],
  ['%', '='], ['^', '='], ['&', '='], ['|', '='], ['=', '='], ['!', '='], ['<'], ['>'],
  ['<', '='], ['>', '='], ['<', '=', '>'], ['&', '&'], ['|', '|'], ['<', '<'], ['>', '>'],
  ['<', '<', '='], ['>', '>', '='], ['+', '+'], ['-', '-'], [',']]

/-- Other spellings of operators, which take part in the cutting but are not read. -/
def digraphs : List (List Char) := [
  ['<', '%'], ['%', '>'], ['<', ':'], [':', '>'], ['%', ':'], ['%', ':', '%', ':']]

/-- Whether an operator may start with these characters. -/
def isOperatorPrefix (cs : List Char) : Bool := (operators ++ digraphs).any cs.isPrefixOf

/-- The value of an octal digit. -/
def octalDigit? (c : Char) : Option Nat :=
  if '0' ≤ c ∧ c ≤ '7' then some (c.toNat - '0'.toNat) else none

/-- The byte of an escape of one letter. -/
def simpleEscape? (c : Char) : Option UInt8 :=
  match c with
  | '\'' => some 0x27
  | '"' => some 0x22
  | '?' => some 0x3f
  | '\\' => some 0x5c
  | 'a' => some 0x07
  | 'b' => some 0x08
  | 'f' => some 0x0c
  | 'n' => some 0x0a
  | 'r' => some 0x0d
  | 't' => some 0x09
  | 'v' => some 0x0b
  | _ => none

/-- The byte of that value, if there is one. -/
def byte? (n : Nat) : Option UInt8 := if n < 256 then some (UInt8.ofNat n) else none

/-- Where the lexer is. -/
inductive State where
  /-- Between tokens. -/
  | blank
  | word (spelling : List Char)
  | number (spelling : List Char)
  | operator (spelling : List Char)
  /-- In a string literal, behind these bytes. -/
  | text (bytes : List UInt8)
  /-- Behind a backslash in a string literal. -/
  | escape (bytes : List UInt8)
  /-- In an octal escape of a string literal, behind this many digits. -/
  | octal (bytes : List UInt8) (value digits : Nat)
  /-- Behind the closing quote of a string literal. -/
  | closed (bytes : List UInt8)
  | lineComment
  /-- In a comment that may end in a line, behind a star or not. -/
  | blockComment (star : Bool)
  deriving DecidableEq, Repr

/-- Where the first character of a token, or a white space, leads to. -/
def start (c : Char) : Option State :=
  if isSpace c then some .blank
  else if isIdentifierStart c then some (.word [c])
  else if c.isDigit then some (.number [c])
  else if c = '"' then some (.text [])
  else if isOperatorPrefix [c] then some (.operator [c])
  else none

/-- The token is complete, and the next one begins. -/
def after (t : Token) (c : Char) : Option (List Token × State) := (start c).map ([t], ·)

/-- One character of a string literal. -/
def inText (bytes : List UInt8) (c : Char) : Option State :=
  if c = '"' then some (.closed bytes)
  else if c = '\\' then some (.escape bytes)
  else if c = '\n' then none
  else some (.text (bytes ++ String.utf8EncodeChar c))

/-- One character of an octal escape, which has three digits at most. -/
def inOctal (bytes : List UInt8) (value digits : Nat) (c : Char) : Option State :=
  match octalDigit? c with
  | some d =>
    if digits < 2 then some (.octal bytes (8 * value + d) (digits + 1))
    else (byte? (8 * value + d)).map fun b => .text (bytes ++ [b])
  | none => (byte? value).bind fun b => inText (bytes ++ [b]) c

/-- One character: the tokens that are complete with it, and where it leads to. -/
def step : State → Char → Option (List Token × State)
  | .blank, c => (start c).map ([], ·)
  | .word cs, c =>
    if isIdentifierPart c then some ([], .word (cs ++ [c]))
    else if c = '"' then none
    else after (.word cs) c
  | .number cs, c =>
    if isIdentifierPart c ∨ c = '.' then some ([], .number (cs ++ [c]))
    else if (c = '+' ∨ c = '-') ∧ cs.getLast?.any ['e', 'E', 'p', 'P'].contains then
      some ([], .number (cs ++ [c]))
    else after (.number cs) c
  | .operator cs, c =>
    if cs = ['/'] ∧ c = '/' then some ([], .lineComment)
    else if cs = ['/'] ∧ c = '*' then some ([], .blockComment false)
    else if cs = ['.'] ∧ c.isDigit then some ([], .number (cs ++ [c]))
    else if isOperatorPrefix (cs ++ [c]) then some ([], .operator (cs ++ [c]))
    else if cs ∈ operators then after (.operator cs) c
    else none
  | .text bytes, c => (inText bytes c).map ([], ·)
  | .escape bytes, c =>
    match octalDigit? c with
    | some d => some ([], .octal bytes d 1)
    | none => (simpleEscape? c).map fun b => ([], .text (bytes ++ [b]))
  | .octal bytes value digits, c => (inOctal bytes value digits c).map ([], ·)
  | .closed bytes, c => if isIdentifierStart c then none else after (.string bytes) c
  | .lineComment, c => some ([], if c = '\n' then .blank else .lineComment)
  | .blockComment star, c =>
    some ([], if star ∧ c = '/' then .blank else .blockComment (c == '*'))

/-- The tokens that are complete within a text, and where the text leads to. -/
def run (s : State) : List Char → Option (List Token × State)
  | [] => some ([], s)
  | c :: rest => do
    let (ts, s') ← step s c
    let (more, last) ← run s' rest
    return (ts ++ more, last)

/-- The token that the end of a text completes. -/
def finish : State → Option (List Token)
  | .blank => some []
  | .word cs => some [.word cs]
  | .number cs => some [.number cs]
  | .operator cs => if cs ∈ operators then some [.operator cs] else none
  | .closed bytes => some [.string bytes]
  | .lineComment => some []
  | _ => none

/-- **The tokens of a text.** -/
def tokens? (cs : List Char) : Option (List Token) := do
  let (ts, s) ← run .blank (spliceLines (replaceTrigraphs cs))
  return ts ++ (← finish s)

/-- A trigraph may stand for the backslash that joins two lines, and octal escapes
    end after three digits. -/
example : tokens? "f(\"a\\1012\" /* ) */, x??/\ny);".toList =
    some (spelled "f (" ++ [.string [0x61, 0x41, 0x32]] ++ spelled ", xy ) ;") := by
  decide +kernel

/-! ## The parts of a text -/

section

variable {s t u : State} {p q : List Token} {c : Char} {cs ds : List Char}

/-- The tokens of a first character, and then those of the rest. -/
theorem run_cons (h : step s c = some (p, t)) (hrest : run t cs = some (q, u)) :
    run s (c :: cs) = some (p ++ q, u) := by
  rw [run, h]
  show (run t cs >>= fun more => some (p ++ more.1, more.2)) = _
  rw [hrest]
  rfl

/-- A text that is read is read character by character. -/
theorem run_cons_eq_some (h : run s (c :: cs) = some (p, u)) :
    ∃ first t later, step s c = some (first, t) ∧ run t cs = some (later, u) ∧
      p = first ++ later := by
  rw [run] at h
  obtain ⟨⟨first, t⟩, hstep, h⟩ := Option.bind_eq_some_iff.mp h
  obtain ⟨⟨later, last⟩, hrest, h⟩ := Option.bind_eq_some_iff.mp h
  cases h
  exact ⟨first, t, later, hstep, hrest, rfl⟩

/-- **One part of a text behind the other.** -/
theorem run_append (h : run s cs = some (p, t)) (hrest : run t ds = some (q, u)) :
    run s (cs ++ ds) = some (p ++ q, u) := by
  induction cs generalizing s p with
  | nil =>
      cases h
      exact hrest
  | cons c cs ih =>
      obtain ⟨first, s', later, hstep, hlater, rfl⟩ := run_cons_eq_some h
      rw [List.append_assoc]
      exact run_cons hstep (ih hlater)

/-- A token is complete where a character that cannot belong to it would begin
    another one. -/
theorem run_of_after {x : Token} (hstep : step s c = after x c)
    (h : run .blank (c :: cs) = some (p, t)) : run s (c :: cs) = some (x :: p, t) := by
  obtain ⟨first, s', later, hfirst, hlater, rfl⟩ := run_cons_eq_some h
  obtain ⟨s'', hstart, hsame⟩ := Option.map_eq_some_iff.mp hfirst
  cases hsame
  refine run_cons (p := [x]) ?_ hlater
  rw [hstep, after, hstart]
  rfl

/-- A word is complete before a character that cannot belong to it. -/
theorem run_word (hc : isIdentifierPart c = false) (hquote : c ≠ '"')
    (h : run .blank (c :: cs) = some (p, t)) {spelling : List Char} :
    run (.word spelling) (c :: cs) = some (.word spelling :: p, t) := by
  refine run_of_after ?_ h
  rw [step, if_neg (by rw [hc]; exact nofun), if_neg hquote]

/-- A string is complete before a character that begins no suffix. -/
theorem run_closed (hc : isIdentifierStart c = false)
    (h : run .blank (c :: cs) = some (p, t)) {bytes : List UInt8} :
    run (.closed bytes) (c :: cs) = some (.string bytes :: p, t) := by
  refine run_of_after ?_ h
  rw [step, if_neg (by rw [hc]; exact nofun)]

end

/-! ## Identifiers -/

/-- What may begin an identifier may stand in it. -/
theorem isIdentifierPart_of_start {c : Char} (h : isIdentifierStart c = true) :
    isIdentifierPart c = true := by
  rw [isIdentifierStart, Bool.or_eq_true] at h
  rw [isIdentifierPart, Bool.or_eq_true]
  exact h.imp_left (Bool.or_eq_true_iff.mpr ∘ .inl)

/-- The letters stand together, up to what is between the two cases. -/
theorem toNat_of_isAlpha {c : Char} (h : c.isAlpha = true) :
    'A'.toNat ≤ c.toNat ∧ c.toNat ≤ 'z'.toNat := by
  rcases Bool.or_eq_true_iff.mp h with h | h
  · obtain ⟨hlow, hhigh⟩ := decide_eq_true_iff.mp h
    exact ⟨UInt32.le_iff_toNat_le.mp hlow,
      Nat.le_trans (UInt32.le_iff_toNat_le.mp hhigh) (by decide)⟩
  · obtain ⟨hlow, hhigh⟩ := Bool.and_eq_true_iff.mp h
    exact ⟨Nat.le_trans (by decide) (UInt32.le_iff_toNat_le.mp (decide_eq_true_iff.mp hlow)),
      UInt32.le_iff_toNat_le.mp (decide_eq_true_iff.mp hhigh)⟩

/-- Identifiers are of visible characters, and have no question mark and no
    backslash. -/
theorem visible_of_isIdentifierPart {c : Char} (h : isIdentifierPart c = true) :
    0x20 < c.toNat ∧ c.toNat < 0x7f ∧ c ≠ '?' ∧ c ≠ '\\' := by
  have hrange : 0x20 < c.toNat ∧ c.toNat < 0x7f := by
    rw [isIdentifierPart, Bool.or_eq_true, beq_iff_eq] at h
    rcases h with h | rfl
    · rcases Bool.or_eq_true_iff.mp h with h | h
      · obtain ⟨hlow, hhigh⟩ := toNat_of_isAlpha h
        exact ⟨Nat.lt_of_lt_of_le (by decide) hlow, Nat.lt_of_le_of_lt hhigh (by decide)⟩
      · obtain ⟨hlow, hhigh⟩ := Char.isDigit_iff_toNat.mp h
        exact ⟨Nat.lt_of_lt_of_le (by decide) hlow, Nat.lt_of_le_of_lt hhigh (by decide)⟩
    · decide
  refine ⟨hrange.1, hrange.2, ?_, ?_⟩
  · rintro rfl
    exact absurd h (by decide)
  · rintro rfl
    exact absurd h (by decide)

theorem isDigit_of_start {c : Char} (h : isIdentifierStart c = true) : c.isDigit = false := by
  rw [Bool.eq_false_iff]
  intro hdigit
  have hhigh := (Char.isDigit_iff_toNat.mp hdigit).2
  rw [isIdentifierStart, Bool.or_eq_true, beq_iff_eq] at h
  rcases h with h | rfl
  · exact absurd (Nat.le_trans (toNat_of_isAlpha h).1 hhigh) (by decide)
  · exact absurd hhigh (by decide)

/-- No operator goes on with an identifier. -/
theorem isOperatorPrefix_of_start {c : Char} (h : isIdentifierStart c = true) (cs : List Char) :
    isOperatorPrefix (cs ++ [c]) = false := by
  have hnone : (operators ++ digraphs).all (·.all fun d => !isIdentifierStart d) = true := by
    decide +kernel
  rw [isOperatorPrefix, List.any_eq_false]
  intro op hop hprefix
  have hin : c ∈ op :=
    (List.isPrefixOf_iff_prefix.mp hprefix).subset (List.mem_append_right _ List.mem_cons_self)
  have hnot := List.all_eq_true.mp (List.all_eq_true.mp hnone op hop) c hin
  rw [h] at hnot
  cases hnot

/-- A character that may begin an identifier begins a word. -/
theorem start_of_isIdentifierStart {c : Char} (h : isIdentifierStart c = true) :
    start c = some (.word [c]) := by
  have hspace : isSpace c = false := by
    have hnone : [' ', '\t', '\n', '\x0b', '\x0c'].all (!isIdentifierStart ·) = true := by decide
    rw [isSpace, List.contains_eq_mem, decide_eq_false_iff_not]
    intro hin
    have hnot := List.all_eq_true.mp hnone c hin
    rw [h] at hnot
    cases hnot
  rw [start, hspace, if_neg nofun, if_pos h]

/-- A word behind an operator. -/
theorem step_operator_of_start {c : Char} (h : isIdentifierStart c = true) {cs : List Char}
    (hcs : cs ∈ operators) : step (.operator cs) c = some ([.operator cs], .word [c]) := by
  have hslash : c ≠ '/' := by
    rintro rfl
    exact absurd h (by decide)
  have hstar : c ≠ '*' := by
    rintro rfl
    exact absurd h (by decide)
  rw [step, if_neg (fun h => hslash h.2), if_neg (fun h => hstar h.2),
    if_neg (by rw [isDigit_of_start h]; exact fun h => nomatch h.2),
    if_neg (by rw [isOperatorPrefix_of_start h]; exact nofun), if_pos hcs, after,
    start_of_isIdentifierStart h]
  rfl

/-- The rest of a word. -/
theorem run_identifierParts {cs : List Char} (h : ∀ c ∈ cs, isIdentifierPart c = true)
    (spelling : List Char) : run (.word spelling) cs = some ([], .word (spelling ++ cs)) := by
  induction cs generalizing spelling with
  | nil => rw [run, List.append_nil]
  | cons c cs ih =>
      obtain ⟨hc, hcs⟩ := List.forall_mem_cons.mp h
      have hstep : step (.word spelling) c = some ([], .word (spelling ++ [c])) := by
        rw [step, if_pos hc]
      rw [run_cons hstep (ih hcs (spelling ++ [c])), List.append_assoc]
      rfl

/-! ## Plain text -/

/-- A character that is visible or a blank, and no part of a trigraph. -/
def isPlain (c : Char) : Bool := decide (0x20 ≤ c.toNat ∧ c.toNat < 0x7f ∧ c ≠ '?')

/-- The plain characters are those that can be printed, but for the question mark. -/
theorem isPlain_iff {c : Char} :
    isPlain c = true ↔ 0x20 ≤ c.toNat ∧ c.toNat < 0x7f ∧ c ≠ '?' := decide_eq_true_iff

theorem isPlain_of_isIdentifierPart {c : Char} (h : isIdentifierPart c = true) :
    isPlain c = true := by
  obtain ⟨hlow, hhigh, hquestion, -⟩ := visible_of_isIdentifierPart h
  exact isPlain_iff.mpr ⟨Nat.le_of_lt hlow, hhigh, hquestion⟩

/-- A plain line has no end of a line in it. -/
theorem newline_not_mem {line : List Char} (h : line.all isPlain = true) : '\n' ∉ line := by
  intro hin
  exact absurd (List.all_eq_true.mp h '\n' hin) (by decide)

/-- Without question marks there are no trigraphs. -/
theorem replaceTrigraphs_eq_self {cs : List Char} (h : '?' ∉ cs) : replaceTrigraphs cs = cs := by
  induction cs with
  | nil => rfl
  | cons c rest ih =>
      rw [List.mem_cons, not_or] at h
      unfold replaceTrigraphs
      split
      · rename_i hcons
        cases hcons
        exact absurd rfl h.1
      · rename_i hcons
        cases hcons
        rw [ih h.2]
      · rename_i hcons
        cases hcons

/-- Two lines are joined only where a backslash ends the first one. -/
theorem spliceLines_cons {c : Char} {rest : List Char} (h : c ≠ '\\' ∨ rest.head? ≠ some '\n') :
    spliceLines (c :: rest) = c :: spliceLines rest := by
  conv => lhs; unfold spliceLines
  split
  · rename_i hcons
    cases hcons
    rcases h with h | h
    · exact absurd rfl h
    · exact absurd rfl h
  · rename_i hcons
    cases hcons
    rfl
  · rename_i hcons
    cases hcons

/-- Without line ends there are no lines to join. -/
theorem spliceLines_eq_self {cs : List Char} (h : '\n' ∉ cs) : spliceLines cs = cs := by
  induction cs with
  | nil => rfl
  | cons c rest ih =>
      have hrest := List.not_mem_of_not_mem_cons h
      have hhead : rest.head? ≠ some '\n' := fun hhead => hrest (List.mem_of_mem_head? hhead)
      rw [spliceLines_cons (.inr hhead), ih hrest]

/-- A line that does not end with a backslash is not joined with the next. -/
theorem spliceLines_line {line : List Char} (hplain : '\n' ∉ line)
    (hlast : line.getLast? ≠ some '\\') (rest : List Char) :
    spliceLines (line ++ '\n' :: rest) = line ++ '\n' :: spliceLines rest := by
  induction line with
  | nil => exact spliceLines_cons (.inl (by decide))
  | cons c line ih =>
      rw [List.mem_cons, not_or] at hplain
      -- the last character of the line stands before the line end
      cases line with
      | nil =>
          have hc : c ≠ '\\' := by
            rintro rfl
            exact hlast rfl
          rw [List.cons_append, spliceLines_cons (.inl hc), ih hplain.2 nofun]
          rfl
      | cons d line =>
          have hd : (d :: line ++ '\n' :: rest).head? ≠ some '\n' := by
            intro hhead
            cases hhead
            exact hplain.2 List.mem_cons_self
          rw [List.cons_append, spliceLines_cons (.inr hd), ih hplain.2 hlast]
          rfl

/-! ## Lines -/

/-- Lines as text, each one ended. -/
def joinLines (lines : List String) : List Char :=
  lines.flatMap fun line => line.toList ++ ['\n']

/-- Lines that end in no backslash are not joined. -/
theorem spliceLines_joinLines {lines : List String}
    (hplain : ∀ line ∈ lines, line.toList.all isPlain = true)
    (hlast : ∀ line ∈ lines, line.toList.getLast? ≠ some '\\') :
    spliceLines (joinLines lines) = joinLines lines := by
  induction lines with
  | nil => rfl
  | cons line later ih =>
      obtain ⟨hline, hlater⟩ := List.forall_mem_cons.mp hplain
      obtain ⟨hend, hends⟩ := List.forall_mem_cons.mp hlast
      rw [joinLines, List.flatMap_cons, List.append_assoc]
      exact (spliceLines_line (newline_not_mem hline) hend _).trans
        (congrArg (line.toList ++ '\n' :: ·) (ih hlater hends))

/-- The lines are plain, stand for themselves, and are these tokens. -/
structure Reads (lines : List String) (ts : List Token) : Prop where
  plain : ∀ line ∈ lines, line.toList.all isPlain = true
  last : ∀ line ∈ lines, line.toList.getLast? ≠ some '\\'
  run : run .blank (joinLines lines) = some (ts, .blank)

namespace Reads

variable {lines more : List String} {line : String} {ts us : List Token}

instance (lines : List String) (ts : List Token) : Decidable (Reads lines ts) :=
  decidable_of_iff
    ((∀ line ∈ lines, line.toList.all isPlain = true) ∧
      (∀ line ∈ lines, line.toList.getLast? ≠ some '\\') ∧
      Cpp.run .blank (joinLines lines) = some (ts, .blank))
    ⟨fun ⟨plain, last, run⟩ => ⟨plain, last, run⟩, fun h => ⟨h.plain, h.last, h.run⟩⟩

/-- One line, whose end is the end of a token. -/
theorem single (plain : line.toList.all isPlain = true) (last : line.toList.getLast? ≠ some '\\')
    (run : Cpp.run .blank (line.toList ++ ['\n']) = some (ts, .blank)) : Reads [line] ts where
  plain := List.forall_mem_singleton.mpr plain
  last := List.forall_mem_singleton.mpr last
  run := by
    rw [joinLines, List.flatMap_singleton]
    exact run

theorem nil : Reads [] [] := ⟨List.forall_mem_nil _, List.forall_mem_nil _, rfl⟩

/-- Lines behind lines, and tokens behind tokens. -/
theorem append (h : Reads lines ts) (h' : Reads more us) : Reads (lines ++ more) (ts ++ us) where
  plain := List.forall_mem_append.mpr ⟨h.plain, h'.plain⟩
  last := List.forall_mem_append.mpr ⟨h.last, h'.last⟩
  run := by
    rw [joinLines, List.flatMap_append]
    exact run_append h.run h'.run

/-- Lines of one form, one for every element of a list. -/
theorem map {α : Type} {f : α → String} {g : α → List Token} (h : ∀ a, Reads [f a] (g a))
    (as : List α) : Reads (as.map f) (as.flatMap g) := by
  induction as with
  | nil => exact nil
  | cons a later ih => exact (h a).append ih

/-- **The tokens of a text of such lines.** -/
theorem tokens_eq (h : Reads lines ts) : tokens? (joinLines lines) = some ts := by
  have hquestion : '?' ∉ joinLines lines := by
    intro hin
    obtain ⟨line, hline, hin⟩ := List.mem_flatMap.mp hin
    rcases List.mem_append.mp hin with hin | hin
    · exact absurd (List.all_eq_true.mp (h.plain line hline) '?' hin) (by decide)
    · exact absurd (List.mem_singleton.mp hin) (by decide)
  rw [tokens?, replaceTrigraphs_eq_self hquestion, spliceLines_joinLines h.plain h.last, h.run]
  show some (ts ++ []) = some ts
  rw [List.append_nil]

/-- A text of such lines is printable, but for the ends of the lines. -/
theorem printable (h : Reads lines ts) : ∀ c ∈ joinLines lines,
    c = '\n' ∨ 0x20 ≤ c.toNat ∧ c.toNat < 0x7f := by
  intro c hin
  obtain ⟨line, hline, hin⟩ := List.mem_flatMap.mp hin
  rcases List.mem_append.mp hin with hin | hin
  · obtain ⟨hlow, hhigh, -⟩ := isPlain_iff.mp (List.all_eq_true.mp (h.plain line hline) c hin)
    exact .inr ⟨hlow, hhigh⟩
  · exact .inl (List.mem_singleton.mp hin)

end Reads

end AheadOfTime.Cpp
