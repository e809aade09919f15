import Converge.Process.Machine
import Converge.Process.Path

/-!
# Machines that replay

A machine on which only certain programs are installed, and whose processes leave what was recorded
beforehand, one recording after another.  Once these are used up, processes end well and leave
nothing.
-/

namespace Converge

/-- The installed programs, the files of the directory in which processes start, the recordings that
are left, and the processes that were started, newest first. -/
structure Replay where
  installed : List String := ["docker", "podman"]
  files : List (String × String) := []
  recordings : List ProcessOutput := []
  started : List Invocation := []

namespace Replay

/-- The bytes that an argument may have. -/
def maxArgument : Nat := 131071

/-- The refusal to start a program that is not installed.  Neither directories nor the files at hand
can be run, and a name without a slash does not lead to the files at hand. -/
def refusal (files : List (String × String)) (program : String) : SystemFault :=
  match Path.follow (if program.toList.contains '/' then files else []) program with
  | .ok _ => .permissionDenied
  | .error fault => fault

def start (r : Replay) (i : Invocation) : Except SystemFault ProcessOutput × Replay :=
  if !r.installed.contains i.program then (.error (refusal r.files i.program), r)
  else if i.args.any fun a => maxArgument < a.utf8ByteSize then (.error .argumentsTooLong, r)
  else
    (.ok (r.recordings.headD {}),
      { r with recordings := r.recordings.tail, started := i :: r.started })

def machine : Machine Replay := ⟨start⟩

end Replay

end Converge
