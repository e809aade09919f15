import Converge.Process.Status

/-!
# Paths

The names along a path, the walk along them from a directory, and the refusals in which such a walk
can end.

A walk sees the files of the directory in which it starts and nothing else: that directory has no
subdirectories, and above it every name is missing.
-/

namespace Converge.Path

/-! ## Names -/

/-- The bytes that a name may have. -/
def maxName : Nat := 255

/-- The bytes that a whole path may have. -/
def maxPath : Nat := 4095

/-- The parts of a path between its slashes, with the characters of the first part that were read
before, newest first. -/
def partsFrom (part : List Char) : List Char → List String
  | [] => [String.ofList part.reverse]
  | c :: cs =>
    if c = '/' then String.ofList part.reverse :: partsFrom [] cs else partsFrom (c :: part) cs

def parts (path : String) : List String :=
  partsFrom [] path.toList

/-- Whether a part of a path leads from a directory to that directory itself. -/
def staysPut (part : String) : Bool :=
  part == "" || part == "."

/-- The names along a path, from which each step of the walk goes on. -/
def names (path : String) : List String :=
  (parts path).filter fun p => !staysPut p

def isAbsolute (path : String) : Bool :=
  path.toList.head? == some '/'

/-- Whether only a directory will do at the end of a path. -/
def asksForDirectory (path : String) : Bool :=
  (parts path).getLast?.any staysPut

/-! ## Walks -/

/-- What a path leads to. -/
inductive Place where
  | directory
  | file (text : String)
deriving DecidableEq, Repr

/-- The refusal for a name under which there is nothing. -/
def missing (name : String) : SystemFault :=
  if name.utf8ByteSize ≤ maxName then .notFound else .nameTooLong

/-- Walks along names, one after another, from a directory with the given files.  Nothing lies
below a file. -/
def walk (files : List (String × String)) : List String → Except SystemFault Place
  | [] => .ok .directory
  | name :: deeper =>
    if name = ".." then walk [] deeper
    else match files.lookup name with
      | none => .error (missing name)
      | some text => if deeper.isEmpty then .ok (.file text) else .error .notDirectory

/-- The refusal of a path before any of its names is looked up. -/
def refusal? (path : String) : Option SystemFault :=
  if path.toList.contains (Char.ofNat 0) then some .nulByte
  else if path.isEmpty then some .notFound
  else if maxPath < path.utf8ByteSize then some .nameTooLong
  else none

/-- Follows a path from a directory with the given files. -/
def follow (files : List (String × String)) (path : String) : Except SystemFault Place :=
  match refusal? path with
  | some fault => .error fault
  | none =>
    match walk (if isAbsolute path then [] else files) (names path) with
    | .ok (.file text) =>
      if asksForDirectory path then .error .notDirectory else .ok (.file text)
    | result => result

end Converge.Path
