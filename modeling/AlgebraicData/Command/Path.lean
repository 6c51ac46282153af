/-!
# Paths

A path is a list of steps with slashes between them: a name goes down, `.` stays and `..` goes up.
An empty part, as between two slashes, is no step.  Names and paths have a greatest length, which
counts bytes.
-/

namespace AlgebraicData.Command.Path

/-- The parts of a path between its slashes. -/
def parts : List Char → List (List Char)
  | [] => [[]]
  | '/' :: rest => [] :: parts rest
  | c :: rest =>
    match parts rest with
    | [] => [[c]]
    | part :: others => (c :: part) :: others

/-- The steps of a path. -/
def steps (path : String) : List String :=
  ((parts path.toList).map String.ofList).filter (· ≠ "")

/-- The steps that go down or up. -/
def names (path : String) : List String :=
  (steps path).filter (· ≠ ".")

/-- Whether a path starts at the root. -/
def isAbsolute (path : String) : Bool :=
  path.toList.head? == some '/'

/-- Whether a path asks for a directory by a slash at its end. -/
def endsInSlash (path : String) : Bool :=
  path.toList.getLast? == some '/'

/-- Whether a name is longer than 255 bytes. -/
def isLongName (name : String) : Bool :=
  255 < name.utf8ByteSize

/-- Whether a path is longer than 4095 bytes. -/
def isLong (path : String) : Bool :=
  4095 < path.utf8ByteSize

end AlgebraicData.Command.Path
