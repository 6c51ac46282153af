import AlgebraicData.Command.Path
import AlgebraicData.Command.System

/-!
# Trees of files

The files and directories below a root as a value: what reading or writing a path does, and why it
may fail.  Paths begin at the root or at the working directory and may lead anywhere in the tree.
There are neither links nor permissions.
-/

namespace AlgebraicData.Command

/-- Files and directories, each by the names that lead to it from the root. -/
structure FileTree where
  files : List (List String × ByteArray)
  /-- Directories that are there whether or not they hold anything. -/
  directories : List (List String)
  /-- The working directory. -/
  current : List String

namespace FileTree

/-! ## Following a path -/

/-- Whether names lead to a directory: the working directory, a directory of the tree, one that
holds a file, or one around these. -/
def isDirectory (tree : FileTree) (names : List String) : Bool :=
  (tree.current :: tree.directories ++ tree.files.map (·.1.dropLast)).any names.isPrefixOf

/-- The bytes of the file that names lead to. -/
def file? (tree : FileTree) (names : List String) : Option ByteArray :=
  tree.files.lookup names

/-- The names of a directory, or why they lead to none. -/
def enter (tree : FileTree) (names : List String) : Except FileError (List String) :=
  if tree.isDirectory names then .ok names
  else if (tree.file? names).isSome then .error .notDirectory
  else .error .notFound

/-- One step from a place, which must be a directory.  Above the root is the root. -/
def step (tree : FileTree) (names : List String) (name : String) :
    Except FileError (List String) := do
  let names ← tree.enter names
  if name = "." then return names
  else if name = ".." then return names.dropLast
  else if Path.isLongName name then .error .nameTooLong
  else return names ++ [name]

/-- Where steps lead, from the root or from the working directory. -/
def follow (tree : FileTree) (path : String) (steps : List String) :
    Except FileError (List String) :=
  if path = "" then .error .notFound
  else if Path.isLong path then .error .nameTooLong
  else steps.foldlM tree.step (if Path.isAbsolute path then [] else tree.current)

/-! ## Reading and writing -/

/-- The bytes of a file. -/
def read (tree : FileTree) (path : String) : Except FileError ByteArray := do
  let names ← tree.follow path (Path.steps path)
  if tree.isDirectory names then .error .isDirectory
  else
    match tree.file? names with
    | none => .error .notFound
    | some bytes => if Path.endsInSlash path then .error .notDirectory else .ok bytes

/-- The names that a path gives to a file to be written.  A slash at the end stands for a directory,
whatever is there. -/
def target (tree : FileTree) (path : String) : Except FileError (List String) := do
  if Path.endsInSlash path then
    let _ ← tree.enter (← tree.follow path (Path.steps path).dropLast)
    .error .isDirectory
  else
    let names ← tree.follow path (Path.steps path)
    if tree.isDirectory names then .error .isDirectory else return names

/-- The tree after a file has been written, new or in place of an old one. -/
def write (tree : FileTree) (path : String) (text : String) : Except FileError FileTree := do
  let names ← tree.target path
  return { tree with files := tree.files.filter (·.1 ≠ names) ++ [(names, text.toUTF8)] }

end FileTree

end AlgebraicData.Command
