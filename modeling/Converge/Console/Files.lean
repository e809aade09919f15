import Converge.Failure
import Converge.Process.Path

/-!
# Files

The directory in which the program runs, as far as it can see it: the texts of its files by name.
-/

namespace Converge.Console

structure Directory where
  files : List (String × String)

/-- Reads the file at the end of a path. -/
def Directory.read (d : Directory) (path : String) : Except SystemFault String :=
  match Path.follow d.files path with
  | .ok (.file text) => .ok text
  | .ok .directory => .error .isDirectory
  | .error fault => .error fault

end Converge.Console
