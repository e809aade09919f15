import Converge.Text.Digits

/-!
# How processes end

The end of a process, and the refusals of the system to open a file or to start a process, with the
words for each.
-/

namespace Converge

inductive ExitStatus where
  | exited (code : Nat)
  | signalled (signal : Nat)
deriving DecidableEq, Repr

namespace ExitStatus

def isSuccess : ExitStatus → Bool
  | exited code => code == 0
  | signalled _ => false

/-- The names of the signals that end a process, from number 1 on. -/
def signalNames : List String := [
  "SIGHUP", "SIGINT", "SIGQUIT", "SIGILL", "SIGTRAP", "SIGABRT", "SIGBUS", "SIGFPE", "SIGKILL",
  "SIGUSR1", "SIGSEGV", "SIGUSR2", "SIGPIPE", "SIGALRM", "SIGTERM", "SIGSTKFLT", "SIGCHLD",
  "SIGCONT", "SIGSTOP", "SIGTSTP", "SIGTTIN", "SIGTTOU", "SIGURG", "SIGXCPU", "SIGXFSZ",
  "SIGVTALRM", "SIGPROF", "SIGWINCH", "SIGIO", "SIGPWR", "SIGSYS"]

def words : ExitStatus → String
  | exited code => "exit status: " ++ Text.decimal code
  | signalled n =>
    "signal: " ++ Text.decimal n ++
      match signalNames[n - 1]? with
      | some name => " (" ++ name ++ ")"
      | none => ""

end ExitStatus

/-- Why the system refused to open a file or to start a process. -/
inductive SystemFault where
  | notFound
  | argumentsTooLong
  | permissionDenied
  | notDirectory
  | isDirectory
  | nameTooLong
  | nulByte
deriving DecidableEq, Repr

/-- The system's words for a refusal. -/
def SystemFault.message : SystemFault → String
  | notFound => "No such file or directory (os error 2)"
  | argumentsTooLong => "Argument list too long (os error 7)"
  | permissionDenied => "Permission denied (os error 13)"
  | notDirectory => "Not a directory (os error 20)"
  | isDirectory => "Is a directory (os error 21)"
  | nameTooLong => "File name too long (os error 36)"
  | nulByte => "nul byte found in provided data"

end Converge
