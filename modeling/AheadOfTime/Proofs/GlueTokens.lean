import AheadOfTime.Build.Link
import AheadOfTime.Proofs.CppLexer

/-! # What glue says

    Glue is C++ source into which names are pasted: entry points, which are
    identifiers, and features, which are any text and become string literals.
    `Content` is all that a piece of glue has to say, and `Content.tokens` the tokens
    that say it.  `ofKind_tokens` shows that glue is lexed as the tokens of its
    content, whatever the features are, so no feature can add, drop or alter a
    statement; and that different contents have different tokens.

    The tokens of the fixed lines are computed.  Those with a name in them are put
    together from the name's and the rest, which begins where the name ends. -/

namespace AheadOfTime.Glue

open EntryPoint (isIdentifierStart isIdentifierPart)
open Cpp (Token Reads joinLines)

/-! ## String literals -/

/-- An octal escape of a byte has three digits. -/
theorem octal_byte (n : Nat) (h : n < 256) : Text.octal 3 n
    = [Char.ofNat (48 + n / 64), Char.ofNat (48 + n / 8 % 8), Char.ofNat (48 + n % 8)] := by
  have hall : ∀ k : Fin 256, Text.octal 3 k.val
      = [Char.ofNat (48 + k / 64), Char.ofNat (48 + k / 8 % 8), Char.ofNat (48 + k % 8)] := by
    decide +kernel
  exact hall ⟨n, h⟩

theorem octalDigit?_ofNat {d : Nat} (h : d < 8) :
    Cpp.octalDigit? (Char.ofNat (48 + d)) = some d := by
  have hall : ∀ k : Fin 8, Cpp.octalDigit? (Char.ofNat (48 + k)) = some k.val := by decide
  exact hall ⟨d, h⟩

/-- Three octal digits behind a backslash are a byte. -/
theorem run_octal (bytes : List UInt8) {n : Nat} (h : n < 256) :
    Cpp.run (.text bytes) ('\\' :: Text.octal 3 n)
      = some ([], .text (bytes ++ [UInt8.ofNat n])) := by
  rw [octal_byte n h]
  have hfirst := octalDigit?_ofNat (d := n / 64) (by omega)
  have hsecond := octalDigit?_ofNat (d := n / 8 % 8) (by omega)
  have hthird := octalDigit?_ofNat (d := n % 8) (by omega)
  have hvalue : 8 * (8 * (n / 64) + n / 8 % 8) + n % 8 = n := by omega
  refine Cpp.run_cons (p := []) (t := .escape bytes) rfl ?_
  refine Cpp.run_cons (p := []) (t := .octal bytes (n / 64) 1) ?_ ?_
  · rw [Cpp.step, hfirst]
  refine Cpp.run_cons (p := []) (t := .octal bytes (8 * (n / 64) + n / 8 % 8) 2) ?_ ?_
  · rw [Cpp.step, Cpp.inOctal, hsecond]
    rfl
  refine Cpp.run_cons (p := []) (t := .text (bytes ++ [UInt8.ofNat n])) ?_ rfl
  rw [Cpp.step, Cpp.inOctal, hthird]
  show Option.map _ ((Cpp.byte? (8 * (8 * (n / 64) + n / 8 % 8) + n % 8)).map _) = _
  rw [hvalue, Cpp.byte?, if_pos h]
  rfl

/-- A character of one byte that is no part of an escape means its byte. -/
theorem run_plainByte (bytes : List UInt8) {n : Nat} (hlow : 0x20 ≤ n) (hhigh : n < 0x7f)
    (hquote : Char.ofNat n ≠ '"') (hbackslash : Char.ofNat n ≠ '\\') :
    Cpp.run (.text bytes) [Char.ofNat n] = some ([], .text (bytes ++ [UInt8.ofNat n])) := by
  have hencode : ∀ k : Fin 128, String.utf8EncodeChar (Char.ofNat k) = [UInt8.ofNat k] := by
    decide +kernel
  have hnewline : Char.ofNat n ≠ '\n' := by
    have hall : ∀ k : Fin 128, 0x20 ≤ k.val → Char.ofNat k ≠ '\n' := by decide +kernel
    exact hall ⟨n, by omega⟩ hlow
  refine Cpp.run_cons (p := []) ?_ rfl
  rw [Cpp.step, Cpp.inText, if_neg hquote, if_neg hbackslash, if_neg hnewline,
    hencode ⟨n, by omega⟩]
  rfl

theorem toNat_ofNat {n : Nat} (h : n < 256) : (Char.ofNat n).toNat = n := by
  have hall : ∀ k : Fin 256, (Char.ofNat k).toNat = k.val := by decide +kernel
  exact hall ⟨n, h⟩

/-- **Every byte** of a literal is read as itself, whatever follows. -/
theorem run_literalByte (bytes : List UInt8) (b : UInt8) :
    Cpp.run (.text bytes) (literalByte b) = some ([], .text (bytes ++ [b])) := by
  have hb : b.toNat < 256 := b.toNat_lt
  have hback : UInt8.ofNat b.toNat = b := UInt8.ofNat_toNat
  rw [literalByte]
  by_cases hescaped : Char.ofNat b.toNat = '"' ∨ Char.ofNat b.toNat = '\\'
  · rw [if_pos hescaped]
    have hvalue := toNat_ofNat hb
    rcases hescaped with hquote | hbackslash
    · rw [hquote] at hvalue ⊢
      rw [← hback, ← hvalue]
      exact Cpp.run_cons (p := []) (t := .escape bytes) rfl rfl
    · rw [hbackslash] at hvalue ⊢
      rw [← hback, ← hvalue]
      exact Cpp.run_cons (p := []) (t := .escape bytes) rfl rfl
  · rw [if_neg hescaped]
    rw [not_or] at hescaped
    by_cases hplain : 0x20 ≤ b.toNat ∧ b.toNat < 0x7F ∧ Char.ofNat b.toNat ≠ '?'
    · rw [if_pos hplain]
      have h := run_plainByte bytes hplain.1 hplain.2.1 hescaped.1 hescaped.2
      rwa [hback] at h
    · rw [if_neg hplain]
      have h := run_octal bytes hb
      rwa [hback] at h

theorem run_literalBytes (before bytes : List UInt8) :
    Cpp.run (.text before) (bytes.flatMap literalByte) = some ([], .text (before ++ bytes)) := by
  induction bytes generalizing before with
  | nil => rw [List.flatMap_nil, List.append_nil, Cpp.run]
  | cons b later ih =>
      have h := Cpp.run_append (run_literalByte before b) (ih (before ++ [b]))
      rwa [List.append_assoc] at h

/-- **A literal is read as the UTF-8 bytes of its text**, wherever one may begin. -/
theorem run_literal {s : Cpp.State} {ts : List Token} (h : Cpp.step s '"' = some (ts, .text []))
    (text : List Char) : Cpp.run s (literalChars text)
      = some (ts, .closed (Text.utf8Bytes text)) := by
  have hrest : Cpp.run (.text []) ((Text.utf8Bytes text).flatMap literalByte ++ ['"'])
      = some ([], .closed (Text.utf8Bytes text)) :=
    Cpp.run_append (run_literalBytes [] _) rfl
  rw [literalChars, Cpp.run_cons h hrest, List.append_nil]

theorem isPlain_literal (text : List Char) : (literalChars text).all Cpp.isPlain = true := by
  have hall : ∀ k : Fin 256, (literalByte (UInt8.ofNat k)).all Cpp.isPlain = true := by
    decide +kernel
  have hbyte : ∀ b : UInt8, (literalByte b).all Cpp.isPlain = true := by
    intro b
    have h := hall ⟨b.toNat, b.toNat_lt⟩
    rwa [show UInt8.ofNat b.toNat = b from UInt8.ofNat_toNat] at h
  have hbytes : ((Text.utf8Bytes text).flatMap literalByte).all Cpp.isPlain = true := by
    rw [List.all_flatMap, List.all_eq_true]
    exact fun b _ => hbyte b
  rw [literalChars, List.all_cons, List.all_append, hbytes]
  decide

/-- A literal has no trigraph in it and no line to join, so it is cut into tokens as it
    stands. -/
theorem tokens?_literalChars (text : List Char) :
    Cpp.tokens? (literalChars text) = some [.string (Text.utf8Bytes text)] := by
  have hplain := isPlain_literal text
  have hquestion : '?' ∉ literalChars text := fun hin =>
    absurd (List.all_eq_true.mp hplain '?' hin) (by decide)
  have hrun : Cpp.run .blank (literalChars text) = some ([], .closed (Text.utf8Bytes text)) :=
    run_literal rfl text
  rw [Cpp.tokens?, Cpp.replaceTrigraphs_eq_self hquestion,
    Cpp.spliceLines_eq_self (Cpp.newline_not_mem hplain), hrun]
  rfl

/-- A text is known by its bytes. -/
theorem utf8Bytes_injective {cs ds : List Char} (h : Text.utf8Bytes cs = Text.utf8Bytes ds) :
    cs = ds := by
  have hencode : cs.utf8Encode = ds.utf8Encode := by
    show List.toByteArray _ = List.toByteArray _
    exact congrArg List.toByteArray h
  refine String.ofList_injective (String.toByteArray_inj.mp ?_)
  rw [String.toByteArray_ofList, String.toByteArray_ofList, hencode]

/-- The bytes of a text are those its string is stored as. -/
theorem utf8Bytes_toList (s : String) : Text.utf8Bytes s.toList = s.toUTF8.data.toList := by
  have hencode : s.toUTF8 = (Text.utf8Bytes s.toList).toByteArray := by
    show s.toByteArray = s.toList.utf8Encode
    rw [← String.toByteArray_ofList, String.ofList_toList]
  rw [hencode, List.data_toByteArray, List.toList_toArray]

/-- **A literal says its text and nothing else**: it is a single token, the string with
    the UTF-8 bytes of the text, so no two texts have the same literal. -/
theorem literal_reads :
    (∀ s : String, Cpp.tokens? (literal s).toList = some [.string s.toUTF8.data.toList]) ∧
      Function.Injective literal := by
  have hreads : ∀ s : String,
      Cpp.tokens? (literal s).toList = some [.string (Text.utf8Bytes s.toList)] := by
    intro s
    rw [literal, String.toList_ofList, tokens?_literalChars]
  constructor
  · intro s
    rw [hreads, utf8Bytes_toList]
  · intro s t h
    have hsame : Cpp.tokens? (literal s).toList = Cpp.tokens? (literal t).toList := by rw [h]
    rw [hreads, hreads] at hsame
    simp only [Option.some.injEq, List.cons.injEq, Token.string.injEq, and_true] at hsame
    exact String.toList_inj.mp (utf8Bytes_injective hsame)

/-! ## Statements -/

/-- The tokens of a declaration of an entry point. -/
def declarationTokens (e : EntryPoint) : List Token :=
  Cpp.spelled "void *" ++ .word e.symbol.toList :: Cpp.spelled "( void * , void * ) ;"

/-- The tokens of a registration: the feature as a literal of its UTF-8 bytes, and the
    entry point. -/
def registrationTokens (m : String × EntryPoint) : List Token :=
  Cpp.spelled "rb_vm_aot_feature_provide (" ++ .string (Text.utf8Bytes m.1.toList) ::
    (Cpp.spelled ", ( void * )" ++ .word m.2.symbol.toList :: Cpp.spelled ") ;")

/-- The tokens of the call that runs a module. -/
def invocationTokens (e : EntryPoint) : List Token :=
  .word e.symbol.toList :: Cpp.spelled "( rb_vm_top_self ( ) , 0 ) ;"

/-- A symbol is a first character and others. -/
theorem symbol_cases (e : EntryPoint) : ∃ c cs, e.symbol.toList = c :: cs ∧
    isIdentifierStart c = true ∧ ∀ d ∈ cs, isIdentifierPart d = true := by
  have hvalid := e.valid
  rcases hsymbol : e.symbol.toList with _ | ⟨c, cs⟩
  · rw [hsymbol] at hvalid
    cases hvalid
  · rw [hsymbol] at hvalid
    obtain ⟨hc, hcs⟩ := Bool.and_eq_true_iff.mp hvalid
    exact ⟨c, cs, rfl, hc, List.all_eq_true.mp hcs⟩

theorem isPlain_symbol (e : EntryPoint) : e.symbol.toList.all Cpp.isPlain = true := by
  obtain ⟨c, cs, hsymbol, hc, hcs⟩ := symbol_cases e
  rw [hsymbol, List.all_eq_true, List.forall_mem_cons]
  exact ⟨Cpp.isPlain_of_isIdentifierPart (Cpp.isIdentifierPart_of_start hc),
    fun d hd => Cpp.isPlain_of_isIdentifierPart (hcs d hd)⟩

/-- A symbol between two tokens is one word. -/
theorem run_symbol (e : EntryPoint) : Cpp.run .blank e.symbol.toList
    = some ([], .word e.symbol.toList) := by
  obtain ⟨c, cs, hsymbol, hc, hcs⟩ := symbol_cases e
  rw [hsymbol]
  refine Cpp.run_cons (p := []) (t := .word [c]) ?_ (Cpp.run_identifierParts hcs [c])
  rw [Cpp.step, Cpp.start_of_isIdentifierStart hc]
  rfl

/-- A symbol behind an operator is one word, and the operator is complete. -/
theorem run_before_symbol (e : EntryPoint) {s : Cpp.State} {cs op : List Char} {ts : List Token}
    (h : Cpp.run s cs = some (ts, .operator op)) (hop : op ∈ Cpp.operators) :
    Cpp.run s (cs ++ e.symbol.toList)
      = some (ts ++ [.operator op], .word e.symbol.toList) := by
  refine Cpp.run_append h ?_
  obtain ⟨c, cs, hsymbol, hc, hcs⟩ := symbol_cases e
  rw [hsymbol]
  exact Cpp.run_cons (Cpp.step_operator_of_start hc hop) (Cpp.run_identifierParts hcs [c])

/-- What a text ends with is what its last part ends with. -/
theorem getLast?_append_ne {s t : String} {c d : Char} (h : t.toList.getLast? = some d)
    (hne : d ≠ c) : (s ++ t).toList.getLast? ≠ some c := by
  rw [String.toList_append, List.getLast?_append, h]
  intro hsame
  exact hne (Option.some.inj hsame)

theorem isPlain_append {s t : String} (hs : s.toList.all Cpp.isPlain = true)
    (ht : t.toList.all Cpp.isPlain = true) : (s ++ t).toList.all Cpp.isPlain = true := by
  rw [String.toList_append, List.all_append, hs, ht]
  rfl

/-- **A declaration** reads as its tokens. -/
theorem reads_declaration (e : EntryPoint) : Reads [declaration e] (declarationTokens e) := by
  refine .single ?_ (getLast?_append_ne (d := ';') (by decide +kernel) (by decide)) ?_
  · exact isPlain_append (isPlain_append (by decide +kernel) (isPlain_symbol e)) (by decide +kernel)
  · have htokens : Cpp.spelled "void *" = [.word "void".toList] ++ [.operator ['*']] := by
      decide +kernel
    have hbefore : Cpp.run .blank "void *".toList =
        some ([.word "void".toList], .operator ['*']) := by
      decide +kernel
    have hbehind : Cpp.run (.word e.symbol.toList) ("(void *, void *);".toList ++ ['\n'])
        = some (.word e.symbol.toList :: Cpp.spelled "( void * , void * ) ;", .blank) :=
      Cpp.run_word (by decide) (by decide) (by decide +kernel)
    have hrun := Cpp.run_append (run_before_symbol e hbefore (by decide +kernel)) hbehind
    rw [declaration, String.toList_append, String.toList_append, List.append_assoc _ _ ['\n'],
      hrun, declarationTokens, htokens]

/-- **A registration** reads as its tokens, whatever the feature is. -/
theorem reads_registration (m : String × EntryPoint) :
    Reads [registration m.1 m.2] (registrationTokens m) := by
  have hliteral : (literal m.1).toList = literalChars m.1.toList := String.toList_ofList
  unfold registration
  refine .single ?_ (getLast?_append_ne (d := ';') (by decide +kernel) (by decide)) ?_
  · have hfeature : (literal m.1).toList.all Cpp.isPlain = true := by
      rw [hliteral]
      exact isPlain_literal m.1.toList
    exact isPlain_append (isPlain_append (isPlain_append
      (isPlain_append (by decide +kernel) hfeature)
      (by decide +kernel)) (isPlain_symbol m.2)) (by decide +kernel)
  · -- piece by piece: up to the feature, the feature, what is between, and the symbol
    have htokens : Cpp.spelled "rb_vm_aot_feature_provide ("
        = [.word "rb_vm_aot_feature_provide".toList] ++ [.operator ['(']] := by decide +kernel
    have htokens' : Cpp.spelled ", ( void * )"
        = Cpp.spelled ", ( void *" ++ [.operator [')']] := by decide +kernel
    have hbefore : Cpp.run .blank "rb_vm_aot_feature_provide(".toList
        = some ([.word "rb_vm_aot_feature_provide".toList], .operator ['(']) := by decide +kernel
    have hfeature : Cpp.run (.operator ['(']) (literalChars m.1.toList)
        = some ([.operator ['(']], .closed (Text.utf8Bytes m.1.toList)) :=
      run_literal (by decide +kernel) _
    have hbetween : Cpp.run (.closed (Text.utf8Bytes m.1.toList)) ", (void *)".toList
        = some (.string (Text.utf8Bytes m.1.toList) :: Cpp.spelled ", ( void *",
          .operator [')']) :=
      Cpp.run_closed (by decide) (by decide +kernel)
    have hbehind : Cpp.run (.word m.2.symbol.toList) (");".toList ++ ['\n'])
        = some (.word m.2.symbol.toList :: Cpp.spelled ") ;", .blank) :=
      Cpp.run_word (by decide) (by decide) (by decide +kernel)
    have hrun := Cpp.run_append (run_before_symbol m.2
      (Cpp.run_append (Cpp.run_append hbefore hfeature) hbetween) (by decide +kernel)) hbehind
    rw [String.toList_append, String.toList_append, String.toList_append, String.toList_append,
      hliteral, List.append_assoc _ _ ['\n'], hrun, registrationTokens, htokens, htokens']
    simp only [List.append_assoc, List.cons_append, List.nil_append]

/-- **The call that runs a module** reads as its tokens. -/
theorem reads_invocation (e : EntryPoint) : Reads [invocation e] (invocationTokens e) := by
  refine .single ?_ (getLast?_append_ne (d := ';') (by decide +kernel) (by decide)) ?_
  · exact isPlain_append (isPlain_symbol e) (by decide +kernel)
  · have hbehind : Cpp.run (.word e.symbol.toList) ("(rb_vm_top_self(), 0);".toList ++ ['\n'])
        = some (.word e.symbol.toList :: Cpp.spelled "( rb_vm_top_self ( ) , 0 ) ;", .blank) :=
      Cpp.run_word (by decide) (by decide) (by decide +kernel)
    rw [invocation, String.toList_append, List.append_assoc,
      Cpp.run_append (run_symbol e) hbehind]
    rfl

/-- Lines that are put further in, as characters. -/
theorem reads_map_indent {lines : List String} {ts : List Token}
    (plain : ∀ line ∈ lines, line.toList.all Cpp.isPlain = true)
    (last : ∀ line ∈ lines, line.toList.getLast? ≠ some '\\')
    (run : Cpp.run .blank (lines.flatMap fun line =>
      ' ' :: ' ' :: ' ' :: ' ' :: (line.toList ++ ['\n'])) = some (ts, .blank)) :
    Reads (lines.map indent) ts where
  plain := by
    rw [List.forall_mem_map]
    intro line hline
    exact isPlain_append (by decide) (plain line hline)
  last := by
    rw [List.forall_mem_map]
    intro line hline
    have hlast := last line hline
    rw [indent, String.toList_append, List.getLast?_append]
    rcases hend : line.toList.getLast? with _ | c
    · decide
    · rwa [hend] at hlast
  run := by
    have hline : ∀ line, (indent line).toList = ' ' :: ' ' :: ' ' :: ' ' :: line.toList := by
      intro line
      rw [indent, String.toList_append]
      rfl
    rw [joinLines, List.flatMap_map]
    simp only [hline]
    exact run

/-- A line reads the same further in. -/
theorem reads_indent {line : String} {ts : List Token} (h : Reads [line] ts) :
    Reads [indent line] ts := by
  have hblanks : Cpp.run .blank [' ', ' ', ' ', ' '] = some ([], .blank) := by decide
  have hrun := h.run
  rw [joinLines, List.flatMap_singleton] at hrun
  refine reads_map_indent h.plain h.last ?_
  rw [List.flatMap_singleton]
  exact Cpp.run_append hblanks hrun

/-! ## Whole glue -/

/-- The tokens that open a block of C functions. -/
def externTokens : List Token :=
  .word "extern".toList :: .string [0x43] :: Cpp.spelled "\x7b"

/-- The tokens of the declarations that registrations use. -/
def runtimeTokens : List Token := [
  "void * rb_vm_top_self ( void ) ;",
  "void rb_vm_aot_feature_provide ( const char * , void * ) ;"].flatMap Cpp.spelled

/-- The tokens of the function that registers modules at load time, up to its body. -/
def registrationHeadTokens : List Token := [
  "__attribute__ ( ( constructor ) ) static void",
  "aotc_register_features ( void ) \x7b"].flatMap Cpp.spelled

/-- The tokens of the declarations that an executable uses. -/
def executableDeclarationTokens : List Token :=
  ["void ruby_sysinit ( int * , char * * * ) ;",
    "void ruby_init ( void ) ;",
    "void ruby_init_loadpath ( void ) ;",
    "void ruby_script ( const char * ) ;",
    "void ruby_set_argv ( int , char * * ) ;",
    "void rb_vm_init_compiler ( void ) ;"].flatMap Cpp.spelled
  ++ runtimeTokens ++
  ["void rb_vm_print_current_exception ( void ) ;",
    "void rb_exit ( int ) ;"].flatMap Cpp.spelled

/-- The tokens of `main`, up to the inside of its `try` block. -/
def mainHeadTokens : List Token := [
  "\x7d int main ( int argc , char * * argv ) \x7b",
  "const char * progname = argv [ 0 ] ;",
  "ruby_sysinit ( & argc , & argv ) ;",
  "if ( argc > 0 ) \x7b argc -- ; argv ++ ; \x7d",
  "ruby_init ( ) ;",
  "ruby_init_loadpath ( ) ;",
  "ruby_set_argv ( argc , argv ) ;",
  "rb_vm_init_compiler ( ) ;",
  "ruby_script ( progname ) ;",
  "try \x7b"].flatMap Cpp.spelled

/-- The tokens of `main` from the end of its `try` block. -/
def mainTailTokens : List Token := [
  "\x7d catch ( ... ) \x7b rb_vm_print_current_exception ( ) ; rb_exit ( 1 ) ; \x7d",
  "rb_exit ( 0 ) ; \x7d"].flatMap Cpp.spelled

/-- All that glue has to say: the module that is run, if one is, and the modules that
    are registered, with their features. -/
structure Content where
  body : Option EntryPoint
  modules : List (String × EntryPoint)

/-- The tokens that say it.  Without a module to run, the modules are registered at
    load time; with one, `main` registers them in its `try` block and runs that module
    as the last statement there. -/
def Content.tokens (c : Content) : List Token :=
  match c.body with
  | none => externTokens ++ runtimeTokens ++ c.modules.flatMap (declarationTokens ·.2)
      ++ registrationHeadTokens ++ c.modules.flatMap registrationTokens ++ Cpp.spelled "\x7d \x7d"
  | some body => externTokens ++ executableDeclarationTokens
      ++ (body :: c.modules.map (·.2)).flatMap declarationTokens
      ++ mainHeadTokens ++ c.modules.flatMap registrationTokens ++ invocationTokens body
      ++ mainTailTokens

/-- What glue of a kind has to say for its inputs, in their order. -/
def content (kind : String) (inputs : List LinkInput) : Content :=
  match OutputKind.ofName? kind, inputs with
  | some .executable, first :: later => ⟨first.entryPoint, registered later⟩
  | _, _ => ⟨none, registered inputs⟩

/-- The lines that open glue, declare the runtime, and stand around the registrations
    at load time read as their tokens. -/
theorem reads_loadTimeFrame : Reads ["extern \"C\" \x7b"] externTokens ∧
    Reads (runtimeDeclarations.map indent) runtimeTokens ∧
    Reads registrationHead registrationHeadTokens ∧
    Reads ["    \x7d", "\x7d"] (Cpp.spelled "\x7d \x7d") := by
  refine ⟨?_, ?_, ?_, ?_⟩
  · decide +kernel
  · exact reads_map_indent (by decide +kernel) (by decide +kernel) (by decide +kernel)
  · decide +kernel
  · decide +kernel

theorem reads_mainHead : Reads (["\x7d", ""] ++ mainHead) mainHeadTokens := by decide +kernel

/-- The lines in front of `main` and at its end read as their tokens. -/
theorem reads_executableFrame :
    Reads (executableDeclarations.map indent) executableDeclarationTokens ∧
      Reads mainTail mainTailTokens := by
  refine ⟨?_, ?_⟩
  · exact reads_map_indent (by decide +kernel) (by decide +kernel) (by decide +kernel)
  · decide +kernel

/-- The registrations read as their tokens, one after the other. -/
theorem reads_registrations (modules : List (String × EntryPoint)) :
    Reads (modules.map fun m => indent (indent (registration m.1 m.2)))
      (modules.flatMap registrationTokens) :=
  Reads.map (fun m => reads_indent (reads_indent (reads_registration m))) modules

/-- **Glue that registers modules at load time** reads as the tokens of its content. -/
theorem reads_loadTimeLines (modules : List (String × EntryPoint)) :
    Reads (loadTimeLines modules) (Content.tokens ⟨none, modules⟩) := by
  have hdeclared := Reads.map (fun m => reads_indent (reads_declaration m.2)) modules
  obtain ⟨hopening, hruntime, hhead, hclose⟩ := reads_loadTimeFrame
  rw [loadTimeLines, List.map_append, List.map_map, ← List.append_assoc]
  exact ((((hopening.append hruntime).append hdeclared).append hhead).append
    (reads_registrations modules)).append hclose

/-- **Glue of an executable** reads as the tokens of its content. -/
theorem reads_executableLines (body : EntryPoint) (modules : List (String × EntryPoint)) :
    Reads (executableLines body modules) (Content.tokens ⟨some body, modules⟩) := by
  have hdeclared := Reads.map (fun e => reads_indent (reads_declaration e))
    (body :: modules.map (·.2))
  have hrun := reads_indent (reads_indent (reads_invocation body))
  have hlines : executableLines body modules = ["extern \"C\" \x7b"]
      ++ executableDeclarations.map indent
      ++ (body :: modules.map (·.2)).map (fun e => indent (declaration e))
      ++ (["\x7d", ""] ++ mainHead)
      ++ modules.map (fun m => indent (indent (registration m.1 m.2)))
      ++ [indent (indent (invocation body))] ++ mainTail := by
    rw [executableLines, List.map_append, List.map_append, List.map_map, List.map_map]
    simp only [List.append_assoc]
    rfl
  obtain ⟨hopening, -⟩ := reads_loadTimeFrame
  obtain ⟨hdeclarations, htail⟩ := reads_executableFrame
  rw [hlines]
  exact (((((hopening.append hdeclarations).append hdeclared).append reads_mainHead).append
    (reads_registrations modules)).append hrun).append htail

/-! ## Contents and their tokens -/

theorem symbol_injective {e e' : EntryPoint} (h : e.symbol.toList = e'.symbol.toList) : e = e' := by
  have hsymbol : e.symbol = e'.symbol := String.toList_inj.mp h
  cases e
  cases e'
  cases hsymbol
  rfl

theorem registrationTokens_injective {m m' : String × EntryPoint}
    (h : registrationTokens m = registrationTokens m') : m = m' := by
  rw [registrationTokens, registrationTokens, List.append_cancel_left_eq, List.cons.injEq] at h
  obtain ⟨hfeature, h⟩ := h
  rw [List.append_cancel_left_eq, List.cons.injEq] at h
  exact Prod.ext (String.toList_inj.mp (utf8Bytes_injective (Token.string.inj hfeature)))
    (symbol_injective (Token.word.inj h.1))

theorem invocationTokens_injective {e e' : EntryPoint}
    (h : invocationTokens e = invocationTokens e') : e = e' := by
  rw [invocationTokens, invocationTokens, List.cons.injEq] at h
  exact symbol_injective (Token.word.inj h.1)

/-- The tokens of a statement are as many whatever it is about. -/
theorem length_statementTokens :
    (∀ e, (declarationTokens e).length = 11) ∧ (∀ m, (registrationTokens m).length = 11) ∧
      ∀ e, (invocationTokens e).length = 9 := by
  refine ⟨fun e => ?_, fun m => ?_, fun e => ?_⟩
  · rw [declarationTokens, List.length_append, List.length_cons]
    decide +kernel
  · rw [registrationTokens, List.length_append, List.length_cons, List.length_append,
      List.length_cons]
    decide +kernel
  · rw [invocationTokens, List.length_cons]
    decide +kernel

section

variable {α β : Type} {f : α → List β} {n : Nat}

/-- Blocks of one length, one for every element. -/
theorem length_flatMap_blocks (hlength : ∀ a, (f a).length = n) (as : List α) :
    (as.flatMap f).length = n * as.length := by
  induction as with
  | nil => rfl
  | cons a later ih =>
      rw [List.flatMap_cons, List.length_append, hlength, ih, List.length_cons, Nat.mul_succ,
        Nat.add_comm]

/-- What blocks of one length say of their elements, they say together. -/
theorem flatMap_blocks_injective (hn : 0 < n) (hlength : ∀ a, (f a).length = n)
    (hblock : ∀ a b, f a = f b → a = b) {as bs : List α} (h : as.flatMap f = bs.flatMap f) :
    as = bs := by
  have hsame : as.length = bs.length := by
    have hlengths := congrArg List.length h
    rw [length_flatMap_blocks hlength, length_flatMap_blocks hlength] at hlengths
    exact Nat.eq_of_mul_eq_mul_left hn hlengths
  induction as generalizing bs with
  | nil => exact (List.length_eq_zero_iff.mp hsame.symm).symm
  | cons a as ih =>
      rcases bs with _ | ⟨b, bs⟩
      · cases hsame
      · rw [List.flatMap_cons, List.flatMap_cons] at h
        obtain ⟨hfirst, hlater⟩ := List.append_inj h (by rw [hlength, hlength])
        rw [hblock a b hfirst, ih hlater (Nat.succ.inj hsame)]

end

/-- The registrations of a content are known by their tokens. -/
theorem registrations_injective {modules modules' : List (String × EntryPoint)}
    (h : modules.flatMap registrationTokens = modules'.flatMap registrationTokens) :
    modules = modules' :=
  flatMap_blocks_injective (by decide) length_statementTokens.2.1
    (fun _ _ => registrationTokens_injective) h

/-- Glue that registers at load time is known by its tokens. -/
theorem modules_eq_of_loadTime {modules modules' : List (String × EntryPoint)}
    (h : Content.tokens ⟨none, modules⟩ = Content.tokens ⟨none, modules'⟩) :
    modules = modules' := by
  have hdeclared := length_flatMap_blocks
    (fun m : String × EntryPoint => length_statementTokens.1 m.2)
  have hregistered := length_flatMap_blocks length_statementTokens.2.1
  have hlength := congrArg List.length h
  simp only [Content.tokens, List.length_append, hdeclared, hregistered] at hlength
  -- as many modules are declared, so the registrations begin at the same place
  have hsame : modules.length = modules'.length := by omega
  simp only [Content.tokens, List.append_cancel_right_eq] at h
  refine registrations_injective (List.append_inj h ?_).2
  simp only [List.length_append, hdeclared, hsame]

/-- Glue of an executable is known by its tokens. -/
theorem body_modules_eq_of_executable {body body' : EntryPoint}
    {modules modules' : List (String × EntryPoint)}
    (h : Content.tokens ⟨some body, modules⟩ = Content.tokens ⟨some body', modules'⟩) :
    body = body' ∧ modules = modules' := by
  have hdeclared := length_flatMap_blocks length_statementTokens.1
  have hregistered := length_flatMap_blocks length_statementTokens.2.1
  have hlength := congrArg List.length h
  simp only [Content.tokens, List.length_append, hdeclared, hregistered,
    length_statementTokens.2.2, List.length_cons, List.length_map] at hlength
  have hsame : modules.length = modules'.length := by omega
  simp only [Content.tokens, List.append_cancel_right_eq] at h
  obtain ⟨hbefore, hrun⟩ := List.append_inj' h (by rw [length_statementTokens.2.2,
    length_statementTokens.2.2])
  refine ⟨invocationTokens_injective hrun, registrations_injective (List.append_inj hbefore ?_).2⟩
  simp only [List.length_append, hdeclared, List.length_cons, List.length_map, hsame]

/-- Glue that runs a module declares other functions first. -/
theorem loadTime_ne_executable {modules modules' : List (String × EntryPoint)} {body : EntryPoint} :
    Content.tokens ⟨none, modules⟩ ≠ Content.tokens ⟨some body, modules'⟩ := by
  intro h
  have hother : ¬ (externTokens ++ runtimeTokens <+:
      externTokens ++ executableDeclarationTokens) := by
    decide +kernel
  have hle : (externTokens ++ runtimeTokens).length
      ≤ (externTokens ++ executableDeclarationTokens).length := by decide +kernel
  simp only [Content.tokens, List.append_assoc] at h
  rw [← List.append_assoc, ← List.append_assoc externTokens executableDeclarationTokens] at h
  exact hother (List.prefix_of_prefix_length_le (List.prefix_append _ _) ⟨_, h.symm⟩ hle)

/-- **Different things to say** have different tokens. -/
theorem Content.tokens_injective {c c' : Content} (h : c.tokens = c'.tokens) : c = c' := by
  obtain ⟨_ | body, modules⟩ := c <;> obtain ⟨_ | body', modules'⟩ := c'
  · rw [modules_eq_of_loadTime h]
  · exact absurd h loadTime_ne_executable
  · exact absurd h.symm loadTime_ne_executable
  · obtain ⟨rfl, rfl⟩ := body_modules_eq_of_executable h
    rfl

/-- The lines that say it. -/
def Content.lines (c : Content) : List String :=
  match c.body with
  | none => loadTimeLines c.modules
  | some body => executableLines body c.modules

theorem Content.reads (c : Content) : Reads c.lines c.tokens := by
  obtain ⟨_ | body, modules⟩ := c
  · exact reads_loadTimeLines modules
  · exact reads_executableLines body modules

theorem toList_unlines (lines : List String) : (unlines lines).toList = joinLines lines := by
  rw [unlines, String.toList_join, List.flatMap_map, joinLines]
  simp only [String.toList_append]
  rfl

/-- Glue is the lines of its content. -/
theorem eq_unlines_of_ofKind {kind : String} {inputs : List LinkInput} {text : String}
    (h : ofKind kind inputs = .ok text) : text = unlines (content kind inputs).lines := by
  unfold ofKind at h
  unfold content
  generalize OutputKind.ofName? kind = k at h ⊢
  rcases k with _ | k
  · cases h
  · cases k with
    | object => cases h
    | bundle =>
        rcases inputs with _ | ⟨⟨path, _ | e, feature⟩, _ | ⟨other, later⟩⟩
        · cases h
        · cases h
        · cases h
        · exact (Except.ok.inj h).symm
        · cases h
    | dylib => exact (Except.ok.inj h).symm
    | executable =>
        rcases inputs with _ | ⟨⟨path, _ | e, feature⟩, later⟩
        · cases h
        · cases h
        · exact (Except.ok.inj h).symm

/-- **Glue says what its content says**, whatever the features are.  It is printable,
    its tokens are those of the entry points and features of its inputs in their
    order, and glue with the same text has the same content. -/
theorem ofKind_tokens {kind : String} {inputs : List LinkInput} {text : String}
    (h : ofKind kind inputs = .ok text) :
    (∀ c ∈ text.toList, c = '\n' ∨ 0x20 ≤ c.toNat ∧ c.toNat < 0x7f) ∧
      Cpp.tokens? text.toList = some (content kind inputs).tokens ∧
      ∀ other others, ofKind other others = .ok text →
        content other others = content kind inputs := by
  have hreads := (content kind inputs).reads
  have hchars : text.toList = joinLines (content kind inputs).lines := by
    rw [eq_unlines_of_ofKind h, toList_unlines]
  have htokens : Cpp.tokens? text.toList = some (content kind inputs).tokens := by
    rw [hchars]
    exact hreads.tokens_eq
  refine ⟨?_, htokens, ?_⟩
  · rw [hchars]
    exact hreads.printable
  · intro other others hother
    have hsame := (content other others).reads.tokens_eq
    rw [← toList_unlines, ← eq_unlines_of_ofKind hother, htokens] at hsame
    exact (Content.tokens_injective (Option.some.inj hsame)).symm

/-- A module whose feature would end its literal, its line and its statement, if it
    could, behind a first one and an object without an entry point. -/
def hostileInputs : List LinkInput := [
  ⟨.ofString "a.o", some ⟨"MREP_A", by decide⟩, "a"⟩,
  ⟨.ofString "b.o", none, "b"⟩,
  ⟨.ofString "c.o", some ⟨"MREP_C", by decide⟩, "\"); rb_exit(1); //??/\n7\u00e9"⟩]

theorem ofKind_tokens_hostile : ∃ text, ofKind "executable" hostileInputs = .ok text ∧
    Cpp.tokens? text.toList = some (Content.tokens ⟨some ⟨"MREP_A", by decide⟩,
      [("\"); rb_exit(1); //??/\n7\u00e9", ⟨"MREP_C", by decide⟩)]⟩) :=
  have htext : ofKind "executable" hostileInputs
      = .ok (unlines (content "executable" hostileInputs).lines) := rfl
  ⟨_, htext, (ofKind_tokens htext).2.1⟩

end AheadOfTime.Glue
