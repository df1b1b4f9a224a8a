import TenantStore.StoreError

/-!
# Files of databases

A path leads through directories to the file of a database.  The tree of directories and files is a
value: it begins with the directories that are known to be there and grows by what is made for the
paths of a storage.  A name has at most 255 bytes, a path at most 4095, and no zero character stands
in either.
-/

namespace TenantStore

/-- The components of a path: what stands between slashes, without empty parts and without dots that
are not in front. -/
def pathComponents (path : String) : List String :=
  let parts := path.splitOn "/"
  let kept (part : String) : Bool := part ≠ "" && part ≠ "."
  match parts with
  | "" :: _ :: _ => "/" :: parts.filter kept
  | "." :: rest => "." :: rest.filter kept
  | _ => parts.filter kept

/-- The name under which the database of a file is known; paths that lead to one file by their
components share it. -/
def fileName (path : String) : String := "/".intercalate (pathComponents path)

/-- Whether a zero character stands in a text. -/
def hasZero (text : String) : Bool := text.toList.contains '\x00'

/-- Whether a file or directory can have a name, with so many bytes to spare. -/
def isUsableName (spare : Nat) (name : String) : Bool :=
  name.utf8ByteSize + spare ≤ 255 && !hasZero name

/-- The number of bytes of the longest path. -/
def longestFilePath : Nat := 4095

/-- A place in the tree: the names that lead to it from the working directory, the last one first.
The root is named by a slash. -/
abbrev Location := List String

namespace Location

/-- The place that a name leads to. -/
def step (location : Location) (name : String) : Location :=
  match name, location with
  | "", _ | ".", _ => location
  | "/", _ => ["/"]
  | "..", [] => [".."]
  | "..", ["/"] => location
  | "..", last :: outer => if last = ".." then ".." :: location else outer
  | _, _ => name :: location

/-- The place that names lead to from the working directory. -/
def ofNames (names : List String) : Location := names.foldl step []

end Location

/-- Why a file cannot be had. -/
inductive FileError where
  /-- A directory on the way to it cannot be made. -/
  | directory (fault : DirectoryFault)
  | unusable
  deriving DecidableEq, Repr

/-- The directories and files that are known to be there. -/
structure FileTree where
  /-- The directories, apart from the working directory and those around it. -/
  directories : List Location := []
  files : List Location := []
  deriving DecidableEq, Repr

namespace FileTree

/-- Whether a directory is at the place. -/
def isDirectory (tree : FileTree) (location : Location) : Bool :=
  location.all (fun name => name = ".." || name = "/") || tree.directories.contains location

/-- Go on to a directory, which is made if nothing is there. -/
def descend (tree : FileTree) (location : Location) (name : String) :
    Except DirectoryFault (FileTree × Location) :=
  let next := location.step name
  if tree.isDirectory next then .ok (tree, next)
  else if tree.files.contains next then .error .fileInTheWay
  else if !isUsableName 0 name then .error .nameTooLong
  else .ok ({ tree with directories := next :: tree.directories }, next)

/-- Make the directories on the way to the last component of a path: the tree with them, and the
place of the innermost one. -/
def withDirectories (tree : FileTree) (path : String) : Except FileError (FileTree × Location) :=
  let names := (pathComponents path).dropLast
  if names.any hasZero then .error (.directory .zeroInName)
  else if longestFilePath < ("/".intercalate names).utf8ByteSize then .error
    (.directory .nameTooLong)
  else (names.foldlM (fun (place : FileTree × Location) => place.1.descend place.2)
    (tree, [])).mapError .directory

/-- Make a file, which must not be there yet. -/
def withFile? (tree : FileTree) (location : Location) : Option FileTree :=
  if tree.isDirectory location || tree.files.contains location then none
  else some { tree with files := location :: tree.files }

/-- Make the file of an ordered database, and the directories on the way to it.  The path ends in
the name of the file. -/
def withOrderedFile (tree : FileTree) (path : String) : Except FileError FileTree := do
  let (tree, directory) ← tree.withDirectories path
  let name := (path.splitOn "/").getLastD ""
  if ["", ".", ".."].contains name || !isUsableName 0 name || longestFilePath <
    path.utf8ByteSize then
    throw .unusable
  match tree.withFile? (name :: directory) with
  | none => throw .unusable
  | some tree => pure tree

/-- Make the files of ordered databases; paths of the same components have one file. -/
def withOrderedFiles (tree : FileTree) (paths : List String) : Except FileError FileTree :=
  let distinct :=
    paths.eraseDupsBy fun first second => pathComponents first == pathComponents second
  distinct.foldlM withOrderedFile tree

/-- The end of the name of the journal that lies beside a relational database. -/
def journalEnding : String := "-journal"

/-- The number of bytes of the longest path of a relational database. -/
def longestTablePath : Nat := 504

/-- Whether the name of a relational database leads to a file that can be made, and its journal
beside it, in a directory that is there. -/
def admitsTables (tree : FileTree) (name : String) : Bool :=
  let names := pathComponents name
  match Location.ofNames names with
  | [] => false
  | last :: directory =>
    !tree.isDirectory (last :: directory) && tree.isDirectory directory &&
      isUsableName journalEnding.utf8ByteSize last &&
      ("/".intercalate names).utf8ByteSize ≤ longestTablePath

end FileTree

end TenantStore
