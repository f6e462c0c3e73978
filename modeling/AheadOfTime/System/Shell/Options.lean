import AheadOfTime.System.Shell.Syntax

/-! # Options and calls of a shell

    An option is a letter, and most options also have a name, which is written after `-o`.
    A shell gets options when it is called, and a script can set and unset them.  The other
    arguments say what a shell runs: a command that is one of them, or a file, or what it
    can read. -/

namespace AheadOfTime.Shell

/-- The options that are set. -/
structure Options where
  letters : List Char := []
  deriving DecidableEq, Repr

namespace Options

/-- Every option with its name.  Two of them have no letter of their own, so that
    control characters stand for them. -/
def all : List (Char × String) :=
  [('e', "errexit"), ('f', "noglob"), ('I', "ignoreeof"), ('i', "interactive"), ('m', "monitor"),
    ('n', "noexec"), ('s', "stdin"), ('x', "xtrace"), ('v', "verbose"), ('V', "vi"),
    ('E', "emacs"), ('C', "noclobber"), ('a', "allexport"), ('b', "notify"), ('u', "nounset"),
    ('p', "privileged"), ('\x01', "nolog"), ('\x02', "debug")]

/-- Whether an option is written as a letter. -/
def isLetter (c : Char) : Bool := ' ' < c && all.any fun option => option.1 == c

/-- Whether an option is set. -/
def has (o : Options) (letter : Char) : Bool := o.letters.contains letter

/-- The options with one set or unset. -/
def turn (o : Options) (letter : Char) (isOn : Bool) : Options :=
  ⟨(all.map Prod.fst).reverse.filter fun other => if other = letter then isOn else o.has other⟩

/-- The letters of the options that are set, last ones first. -/
def shown (o : Options) : Octets := String.ofList (o.letters.filter isLetter)

/-- The options after a letter of an argument; `o` takes the name of one.  A shell that
    is called takes `c` in addition, which says nothing about options.  What is no
    option is answered as it is written. -/
def turnLetter (isCall isOn : Bool) (name : Option Octets) (o : Options) (letter : Char) :
    Except Octets Options :=
  if letter = 'o' then
    match name with
    | none => .ok o
    | some name => match all.find? fun option => option.2 == name with
      | some option => .ok (o.turn option.1 isOn)
      | none => .error ("-o " ++ name)
  else if letter = 'c' ∧ isCall = true then .ok o
  else if isLetter letter then .ok (o.turn letter isOn)
  else .error (String.ofList [if isOn then '-' else '+', letter])

/-- What the options in front of arguments come to: the options, whether `c` is among
    them, the argument of hyphens only that ends them, and the arguments after them. -/
structure Reading where
  options : Options
  takesCommand : Bool
  ending : Option Octets
  rest : List Octets
  deriving DecidableEq, Repr

/-- Whether an argument of hyphens only ends the options. -/
def isEnding (argument : Octets) : Bool := argument == "-" || argument == "--"

/-- An argument that sets options, or unsets them, with their letters. -/
def letters? (argument : Octets) : Option (Bool × List Char) :=
  match argument.toList with
  | '-' :: letters => some (true, letters)
  | '+' :: letters => some (false, letters)
  | _ => none

/-- Reads the options in front of arguments; `isName` if the first argument is the name
    of an option that has been dealt with. -/
def read (isCall : Bool) (o : Options) (takesCommand isName : Bool) :
    List Octets → Except Octets Reading
  | [] => .ok ⟨o, takesCommand, none, []⟩
  | argument :: rest =>
    if isName then read isCall o takesCommand false rest
    else if isEnding argument then .ok ⟨o, takesCommand, some argument, rest⟩
    else match letters? argument with
      | none => .ok ⟨o, takesCommand, none, argument :: rest⟩
      | some (isOn, letters) => do
        let o ← letters.foldlM (turnLetter isCall isOn rest.head?) o
        read isCall o (takesCommand || isCall && letters.contains 'c') (letters.contains 'o') rest

end Options

end AheadOfTime.Shell

namespace AheadOfTime.Shell

/-- What a shell runs. -/
inductive Errand where
  | command (text : Octets)
  | file (path : Octets)
  | input
  deriving DecidableEq, Repr

/-- How a shell is called: what it runs, its options, its name, and the parameters. -/
structure Invocation where
  errand : Errand := .input
  options : Options := {}
  name : Octets
  parameters : List Octets := []
  deriving DecidableEq, Repr

/-- Reads the arguments of a shell, after its name, or answers what is wrong with them. -/
def Invocation.ofArguments (name : Octets) (arguments : List Octets) : Except Octets Invocation :=
  match Options.read true {} false false arguments with
  | .error option => .error ("Illegal option " ++ option)
  | .ok ⟨options, true, _, rest⟩ => match rest with
    | [] => .error "-c requires an argument"
    | text :: rest =>
      .ok { errand := .command text, options, name := rest.headD name, parameters := rest.drop 1 }
  | .ok ⟨options, false, _, rest⟩ => match rest with
    | [] => .ok { options := options.turn 's' true, name }
    | path :: rest =>
      if options.has 's' then .ok { options, name, parameters := path :: rest }
      else .ok { errand := .file path, options, name, parameters := rest }

end AheadOfTime.Shell
