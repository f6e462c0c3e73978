import AheadOfTime.System.Number
import AheadOfTime.System.Octets

/-! # Signals

    The signals that processes can be sent, by number and by name, and what is said of a
    process that one of them has ended. -/

namespace AheadOfTime.Signal

/-- The signals with names of their own: the number, the name, and what is said of a
    process that the signal has ended. -/
def named : List (Nat × String × String) :=
  [(0, "EXIT", "Unknown signal 0"), (1, "HUP", "Hangup"), (2, "INT", "Interrupt"),
    (3, "QUIT", "Quit"), (4, "ILL", "Illegal instruction"), (5, "TRAP", "Trace/breakpoint trap"),
    (6, "ABRT", "Aborted"), (7, "BUS", "Bus error"), (8, "FPE", "Floating point exception"),
    (9, "KILL", "Killed"), (10, "USR1", "User defined signal 1"),
    (11, "SEGV", "Segmentation fault"), (12, "USR2", "User defined signal 2"),
    (13, "PIPE", "Broken pipe"), (14, "ALRM", "Alarm clock"), (15, "TERM", "Terminated"),
    (16, "16", "Stack fault"), (17, "CHLD", "Child exited"), (18, "CONT", "Continued"),
    (19, "STOP", "Stopped (signal)"), (20, "TSTP", "Stopped"), (21, "TTIN", "Stopped (tty input)"),
    (22, "TTOU", "Stopped (tty output)"), (23, "URG", "Urgent I/O condition"),
    (24, "XCPU", "CPU time limit exceeded"), (25, "XFSZ", "File size limit exceeded"),
    (26, "VTALRM", "Virtual timer expired"), (27, "PROF", "Profiling timer expired"),
    (28, "WINCH", "Window changed"), (29, "IO", "I/O possible"), (30, "PWR", "Power failure"),
    (31, "SYS", "Bad system call"), (34, "RTMIN", "Real-time signal 0"),
    (64, "RTMAX", "Real-time signal 30")]

/-- The greatest number of a signal. -/
def greatest : Nat := 64

def interrupt : Nat := 2
def quit : Nat := 3
def kill : Nat := 9
def pipe : Nat := 13
def terminate : Nat := 15
def child : Nat := 17
def goOn : Nat := 18

/-- The signals that halt a process until it is told to go on. -/
def halting : List Nat := [19, 20, 21, 22]

/-- The signals whose effect no process can change. -/
def fixed : List Nat := [9, 19]

/-- The signals that do nothing to a process that has not asked for them. -/
def harmless : List Nat := [0, 17, 18, 23, 28]

/-- The name of a signal; the ones for real-time use are counted from both ends of their
    range, and the rest have only their numbers. -/
def name (signal : Nat) : String :=
  match named.lookup signal with
  | some (name, _) => name
  | none =>
    if signal < 34 then toString signal
    else if signal < 50 then "RTMIN+" ++ toString (signal - 34)
    else "RTMAX-" ++ toString (64 - signal)

/-- The signal that a text names, by its number or by its name in any case; `least` is
    the least one that may be meant by name. -/
def ofText? (least : Nat) (text : Octets) : Option Nat :=
  match Number.decimal? text.toList with
  | some n => if n ≤ greatest then some n else byName
  | none => byName
where
  /-- The signal with that name. -/
  byName : Option Nat :=
    let wanted := text.map Char.toUpper
    ((List.range (greatest + 1)).drop least).find? fun signal => name signal == wanted

/-- Whether a text is the number of a signal. -/
def isNumber (text : Octets) : Bool := (Number.decimal? text.toList).any (· ≤ greatest)

/-- What is said of a process that a signal has ended. -/
def text (signal : Nat) : String :=
  match named.lookup signal with
  | some (_, text) => text
  | none =>
    if 34 ≤ signal then "Real-time signal " ++ toString (signal - 34)
    else "Unknown signal " ++ toString signal

end AheadOfTime.Signal
