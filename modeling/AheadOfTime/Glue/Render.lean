import AheadOfTime.LinkInput
import AheadOfTime.Text.Digits
import AheadOfTime.Text.Utf8

/-! # Glue code

    The C++ source that ties compiled modules to the runtime.  A bundle or a dynamic library
    registers its modules when it is loaded.  An executable has a `main` that starts the
    runtime, registers the modules after the first one, and runs the first one.  Only modules
    with an entry point appear.

    A text is written as a string literal of C.  Bytes of printable ASCII stand for
    themselves, apart from the quote and the backslash, which get a backslash in front, and
    the question mark, which could start a trigraph; it and all other bytes are written as a
    backslash and three octal digits. -/

namespace AheadOfTime.Glue

/-- One byte of a literal. -/
def literalByte (b : UInt8) : List Char :=
  let c := Char.ofNat b.toNat
  if c = '"' ∨ c = '\\' then ['\\', c]
  else if 0x20 ≤ b.toNat ∧ b.toNat < 0x7F ∧ c ≠ '?' then [c]
  else '\\' :: Text.octal 3 b.toNat

/-- A text as a literal. -/
def literalChars (cs : List Char) : List Char :=
  '"' :: ((Text.utf8Bytes cs).flatMap literalByte ++ ['"'])

/-- A text as a string literal of C. -/
def literal (s : String) : String := String.ofList (literalChars s.toList)

/-- The functions of the runtime that registrations use. -/
def runtimeDeclarations : List String := [
  "void *rb_vm_top_self(void);",
  "void rb_vm_aot_feature_provide(const char *, void *);"]

/-- The functions of the runtime that an executable uses. -/
def executableDeclarations : List String :=
  ["void ruby_sysinit(int *, char ***);",
    "void ruby_init(void);",
    "void ruby_init_loadpath(void);",
    "void ruby_script(const char *);",
    "void ruby_set_argv(int, char **);",
    "void rb_vm_init_compiler(void);"]
  ++ runtimeDeclarations ++
  ["void rb_vm_print_current_exception(void);",
    "void rb_exit(int);"]

/-- The start of an executable's `main`. -/
def mainHead : List String := [
  "int",
  "main(int argc, char **argv)",
  "\x7b",
  "    const char *progname = argv[0];",
  "    ruby_sysinit(&argc, &argv);",
  "    if (argc > 0) \x7b",
  "        argc--;",
  "        argv++;",
  "    \x7d",
  "    ruby_init();",
  "    ruby_init_loadpath();",
  "    ruby_set_argv(argc, argv);",
  "    rb_vm_init_compiler();",
  "    ruby_script(progname);",
  "    try \x7b"]

/-- The end of an executable's `main`. -/
def mainTail : List String := [
  "    \x7d",
  "    catch (...) \x7b",
  "        rb_vm_print_current_exception();",
  "        rb_exit(1);",
  "    \x7d",
  "    rb_exit(0);",
  "\x7d"]

/-- The head of the function that registers modules at load time. -/
def registrationHead : List String := [
  "",
  "    __attribute__((constructor)) static void",
  "    aotc_register_features(void)",
  "    \x7b"]

/-- The names with the features they register, for the inputs that have an entry point. -/
def registered (inputs : List LinkInput) : List (String × EntryPoint) :=
  inputs.filterMap fun input => input.entryPoint.map (input.feature, ·)

/-- The declaration of an entry point. -/
def declaration (e : EntryPoint) : String := "void *" ++ e.symbol ++ "(void *, void *);"

/-- The statement that registers a module. -/
def registration (feature : String) (e : EntryPoint) : String :=
  "rb_vm_aot_feature_provide(" ++ literal feature ++ ", (void *)" ++ e.symbol ++ ");"

/-- The statement that runs a module. -/
def invocation (e : EntryPoint) : String := e.symbol ++ "(rb_vm_top_self(), 0);"

/-- A line four blanks further in. -/
def indent (line : String) : String := "    " ++ line

/-- Lines as text, each one ended. -/
def unlines (lines : List String) : String :=
  String.join (lines.map (· ++ "\n"))

/-- The lines of glue that registers modules at load time. -/
def loadTimeLines (modules : List (String × EntryPoint)) : List String :=
  ["extern \"C\" \x7b"]
    ++ (runtimeDeclarations ++ modules.map fun m => declaration m.2).map indent
    ++ registrationHead
    ++ modules.map (fun m => indent (indent (registration m.1 m.2)))
    ++ ["    \x7d", "\x7d"]

/-- The lines of an executable's glue: all entry points are declared, the ones after the
    first are registered, the first one is run. -/
def executableLines (body : EntryPoint) (modules : List (String × EntryPoint)) : List String :=
  ["extern \"C\" \x7b"]
    ++ (executableDeclarations ++ (body :: modules.map (·.2)).map declaration).map indent
    ++ ["\x7d", ""]
    ++ mainHead
    ++ (modules.map (fun m => registration m.1 m.2) ++ [invocation body]).map (indent ∘ indent)
    ++ mainTail

/-- The glue of a dynamic library. -/
def ofDylib (inputs : List LinkInput) : String := unlines (loadTimeLines (registered inputs))

/-- The glue of a bundle. -/
def ofBundle (unit : LinkInput) : Except Problem String :=
  match unit.entryPoint with
  | none => .error (.bundleGlueEntryPoint unit.path)
  | some e => .ok (unlines (loadTimeLines [(unit.feature, e)]))

/-- The glue of an executable, which runs the first input. -/
def ofExecutable (inputs : List LinkInput) : Except Problem String :=
  match inputs with
  | [] => .error (.noProgramBody none)
  | first :: later => match first.entryPoint with
    | none => .error (.noProgramBody (some first.path))
    | some body => .ok (unlines (executableLines body (registered later)))

/-- The glue for the kind of output of that name. -/
def ofKind (kind : String) (inputs : List LinkInput) : Except Problem String :=
  match OutputKind.ofName? kind with
  | some .bundle => match inputs with
    | [unit] => ofBundle unit
    | _ => .error (.bundleGlueUnits inputs.length)
  | some .dylib => .ok (ofDylib inputs)
  | some .executable => ofExecutable inputs
  | _ => .error (.noGlue kind)

end AheadOfTime.Glue
