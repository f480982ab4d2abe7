import Cookbook.Failure
import Cookbook.Text.Utf8

/-!
# Processes

A command is started as a process, and the process ends in one of a few ways.
The verdict on an outcome is either success or the reason to stop: the status
a shell would report, or an abort that is nobody's recipe's fault.
-/

namespace Cookbook

/-- A process start: the command and the directory it is started in, if one is chosen. -/
structure Start where
  command : List String
  directory : Option String
  deriving DecidableEq

/-- Reasons to stop that lie outside the recipes. -/
inductive Abort
  | interrupted (text : String)
  | invalidRequest (text : String)
  | breakdown (text : String)
  deriving DecidableEq

def Abort.message : Abort → String
  | .interrupted text => text
  | .invalidRequest text => text
  | .breakdown text => text

/-- What goes wrong with files. -/
inductive FileProblem
  | noRecipeFile (path : String)
  | noJustfile (path : String)
  | directory (path : String)
  | noEntryPoint (path : String)
  | encoding (malformed : Text.Utf8.Malformed)
  | tooLong (path : String)
  deriving DecidableEq

/-- The wording of a problem with files. -/
def FileProblem.message : FileProblem → String
  | .noRecipeFile path => "Recipe file not found: " ++ path
  | .noJustfile path => "Justfile not found: " ++ path
  | .directory path => "[Errno 21] Is a directory: " ++ Text.quoted path
  | .noEntryPoint path => "can't find '__main__' module in " ++ Text.quoted path
  | .encoding malformed => malformed.message
  | .tooLong path => "[Errno 36] File name too long: " ++ Text.quoted path

/-- Why work stops before its end. -/
inductive Stop
  | failure (cause : Failure)
  | abort (cause : Abort)
  | files (cause : FileProblem)
  deriving DecidableEq

namespace Stop

def message : Stop → String
  | .failure cause => cause.message
  | .abort cause => cause.message
  | .files cause => cause.message

/-- The exit status that a stop brings with it; only failures have one. -/
def exitCode? : Stop → Option Nat
  | .failure cause => some cause.exitCode
  | _ => none

/-- The same stop, on behalf of a recipe if no recipe is named yet. -/
def ownedBy (recipe : String) : Stop → Stop
  | .failure (.commandFailed command status none reason) =>
    .failure (.commandFailed command status (some recipe) reason)
  | stop => stop

end Stop

/-- How the start of a process ends. -/
inductive Outcome
  | exited (code : Int)
  | denied (text : String)
  | unavailable (text : String)
  | aborted (cause : Abort)
  deriving DecidableEq

/-- The names of signals, by number. -/
def signalNames : List (Nat × String) :=
  [ (1, "SIGHUP"), (2, "SIGINT"), (3, "SIGQUIT"), (4, "SIGILL"), (5, "SIGTRAP"),
    (6, "SIGABRT"), (7, "SIGBUS"), (8, "SIGFPE"), (9, "SIGKILL"), (10, "SIGUSR1"),
    (11, "SIGSEGV"), (12, "SIGUSR2"), (13, "SIGPIPE"), (14, "SIGALRM"), (15, "SIGTERM"),
    (16, "SIGSTKFLT"), (17, "SIGCHLD"), (18, "SIGCONT"), (19, "SIGSTOP"), (20, "SIGTSTP"),
    (21, "SIGTTIN"), (22, "SIGTTOU"), (23, "SIGURG"), (24, "SIGXCPU"), (25, "SIGXFSZ"),
    (26, "SIGVTALRM"), (27, "SIGPROF"), (28, "SIGWINCH"), (29, "SIGIO"), (30, "SIGPWR"),
    (31, "SIGSYS"), (34, "SIGRTMIN"), (64, "SIGRTMAX") ]

/-- What a process killed by a signal is reported to have died of. -/
def killedBy (signal : Nat) : String :=
  match signalNames.lookup signal with
  | some name => "killed by " ++ name
  | none => "killed by signal " ++ toString signal

/--
What an outcome means for the command: a negative code is the number of the
signal that killed the process, and is reported as a shell reports it.
-/
def Outcome.verdict (command : List String) : Outcome → Except Stop Unit
  | .exited code =>
    if code = 0 then
      .ok ()
    else if code < 0 then
      .error (.failure
        (.commandFailed command (128 - code) none (some (killedBy code.natAbs))))
    else
      .error (.failure (.commandFailed command code none none))
  | .denied text => .error (.failure (.commandFailed command 126 none (some text)))
  | .unavailable text => .error (.failure (.commandFailed command 127 none (some text)))
  | .aborted cause => .error (.abort cause)

/-- What starts of processes lead to, given the starts before. -/
abbrev Processes :=
  List Start → Start → Outcome

end Cookbook
