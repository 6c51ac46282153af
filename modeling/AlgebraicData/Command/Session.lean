import AlgebraicData.Command.FileTree

/-!
# Sessions

A session is a tree of files with a standard input and with what has been printed so far.  Commands
can run on it, and nothing that they write is lost.
-/

namespace AlgebraicData.Command

/-- What a command can read, and what commands have left behind. -/
structure Session where
  tree : FileTree
  stdin : ByteArray
  stdout : String := ""

namespace Session

/-- Read an input. -/
def read (origin : Origin) (session : Session) : Except FileError ByteArray :=
  match origin with
  | .standardInput => .ok session.stdin
  | .file path => session.tree.read path

/-- Write a text.  A session in which that fails stays as it was. -/
def write (destination : Destination) (text : String) (session : Session) :
    Except FileError Unit × Session :=
  match destination with
  | .standardOutput => (.ok (), { session with stdout := session.stdout ++ text })
  | .file path =>
    match session.tree.write path text with
    | .ok tree => (.ok (), { session with tree })
    | .error error => (.error error, session)

/-- Sessions as a system for commands. -/
def system : System Session :=
  ⟨read, write⟩

end Session

/-! ## Directories -/

/-- The files of a directory and of those inside it, each with the names that lead to it. -/
structure Directory where
  files : List (List String × ByteArray)

/-- The tree that holds nothing but a directory, and in which paths begin there. -/
def FileTree.ofDirectory (directory : Directory) : FileTree where
  files := directory.files.map fun (names, bytes) => ("directory" :: names, bytes)
  directories := []
  current := ["directory"]

/-- The working directory of a tree. -/
def FileTree.directory (tree : FileTree) : Directory where
  files := tree.files.filterMap fun (names, bytes) =>
    if tree.current.isPrefixOf names then some (names.drop tree.current.length, bytes) else none

end AlgebraicData.Command
