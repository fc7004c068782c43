import FoodScan.FileFault

/-!
# File trees

A file system without links is a tree of directories and files. A path names a place in
it: an absolute path from the root, any other from a working directory.
`FileTree.locate` walks a path, up as well as down, and `FileTree.readText`,
`FileTree.writeFile` and the others work on the place it comes to.
`FileTree.makeDirectories` works like the system itself, one directory at a time, so that
what it has made shows even if it fails.
-/

namespace FoodScan

/-- A file, or a directory with its entries in the order in which they are listed. -/
inductive FileTree where
  | file (content : ByteArray)
  | directory (entries : List (String × FileTree))

namespace FileTree

instance : Inhabited FileTree := ⟨.directory []⟩

def isFile : FileTree → Bool
  | .file _ => true
  | .directory _ => false

def isDirectory : FileTree → Bool
  | .file _ => false
  | .directory _ => true

/-! ## Places -/

/-- The node that names lead to, from directory to directory. -/
def at? (tree : FileTree) : List String → Option FileTree
  | [] => some tree
  | name :: rest =>
    match tree with
    | .file _ => none
    | .directory entries =>
      match entries.lookup name with
      | some child => child.at? rest
      | none => none

/-- Puts a node at a name among entries, in place of one of that name or after all others. -/
def putEntry (name : String) (node : FileTree) :
    List (String × FileTree) → List (String × FileTree)
  | [] => [(name, node)]
  | e :: rest => if e.1 = name then (name, node) :: rest else e :: putEntry name node rest

/-- Changes the entries of the directory that names lead to; directories that are missing on the
way are made. -/
def changeDirectory (change : List (String × FileTree) → List (String × FileTree)) :
    List String → FileTree → Except FileFault FileTree
  | [], .directory entries => .ok (.directory (change entries))
  | [], .file _ => .error .exists
  | _ :: _, .file _ => .error .notDirectory
  | name :: rest, .directory entries => do
    let child := (entries.lookup name).getD (.directory [])
    return .directory (putEntry name (← changeDirectory change rest child) entries)

/-! ## Paths -/

/-- The parts of a path between slashes. -/
def pathParts (path : String) : List String :=
  (path.toList.splitOn '/').map String.ofList

/-- The components of a path: its parts, but for those that lead nowhere. -/
def components (path : String) : List String :=
  (pathParts path).filter fun part => part ≠ "" ∧ part ≠ "."

/-- Whether a path starts at the root. -/
def isAbsolute (path : String) : Bool := path.toList.head? == some '/'

/-- A path continued by a name. -/
def join (path name : String) : String :=
  if path.toList.getLast? = some '/' || path.isEmpty then path ++ name
  else path ++ "/" ++ name

/-- The most bytes of a path. -/
def pathLimit : Nat := 4095

/-- The most bytes of a name. -/
def nameLimit : Nat := 255

/-- Walks the parts of a path from a directory, itself given by the names that lead to it from
the root. Every part must lead on from a directory; a part that is too long for a name is found
out when it is looked up. -/
def walk (tree : FileTree) : List String → List String → Except FileFault (List String)
  | here, [] => .ok here
  | here, part :: rest =>
    match tree.at? here with
    | some (.directory entries) =>
      if part = "" ∨ part = "." then walk tree here rest
      else if part = ".." then walk tree here.dropLast rest
      else if nameLimit < part.utf8ByteSize then .error .nameTooLong
      else if (entries.lookup part).isSome then walk tree (here ++ [part]) rest
      else .error .notFound
    | some (.file _) => .error .notDirectory
    | none => .error .notFound

/-- The directory that a path leads on from: the root, or else the working directory. -/
def origin (workingDirectory : List String) (path : String) : List String :=
  if isAbsolute path then [] else workingDirectory

/-- Why a path is refused as a whole, before it is walked. -/
def refusal? (path : String) : Option FileFault :=
  if path.toList.contains '\x00' then some .nulInPath
  else if path.isEmpty then some .notFound
  else if pathLimit < path.utf8ByteSize then some .nameTooLong
  else none

/-- The names that lead from the root to the place of a path. -/
def locate (tree : FileTree) (workingDirectory : List String) (path : String) :
    Except FileFault (List String) :=
  match refusal? path with
  | some fault => .error fault
  | none => walk tree (origin workingDirectory path) (pathParts path)

/-- The node at a path. -/
def find (tree : FileTree) (workingDirectory : List String) (path : String) :
    Except FileFault FileTree := do
  match tree.at? (← tree.locate workingDirectory path) with
  | some node => return node
  | none => .error .notFound

/-! ## Reading and writing -/

/-- The text of the file at a path. -/
def readText (tree : FileTree) (workingDirectory : List String) (path : String) :
    Except FileFault String := do
  match ← tree.find workingDirectory path with
  | .directory _ => .error .isDirectory
  | .file content =>
    match String.fromUTF8? content with
    | some text => return text
    | none => .error .notUtf8

/-- Whether there is a file at a path. -/
def hasFile (tree : FileTree) (workingDirectory : List String) (path : String) : Bool :=
  match tree.find workingDirectory path with
  | .ok node => node.isFile
  | .error _ => false

/-- Whether there is anything at a path. -/
def hasAny (tree : FileTree) (workingDirectory : List String) (path : String) : Bool :=
  match tree.find workingDirectory path with
  | .ok _ => true
  | .error _ => false

/-- The entries of the directory at a path. -/
def entriesAt? (tree : FileTree) (workingDirectory : List String) (path : String) :
    Option (List (String × FileTree)) :=
  match tree.find workingDirectory path with
  | .ok (.directory entries) => some entries
  | _ => none

/-- The tree with a file at the end of names from the root, missing directories made. -/
def writeFile (tree : FileTree) (directory : List String) (name : String) (content : ByteArray) :
    Except FileFault FileTree :=
  changeDirectory (putEntry name (.file content)) directory tree

/-- The tree without the entry at the end of names from the root. -/
def removeEntry (tree : FileTree) (directory : List String) (name : String) :
    Except FileFault FileTree :=
  changeDirectory (List.filter fun e => e.1 ≠ name) directory tree

/-- The tree with a directory at the end of names from the root. -/
def makeDirectory (tree : FileTree) (directory : List String) : Except FileFault FileTree :=
  changeDirectory id directory tree

/-! ## One step of the system at a time -/

/-- The entry of a name, which must not be too long for one. -/
def lookUp (entries : List (String × FileTree)) (name : String) :
    Except FileFault (Option FileTree) :=
  if nameLimit < name.utf8ByteSize then .error .nameTooLong else .ok (entries.lookup name)

/-- Changes the entries of the directory that names lead to, which must be there. -/
def withinDirectory
    (change : List (String × FileTree) → Except FileFault (List (String × FileTree))) :
    List String → FileTree → Except FileFault FileTree
  | _, .file _ => .error .notDirectory
  | [], .directory entries => return .directory (← change entries)
  | name :: rest, .directory entries => do
    match entries.lookup name with
    | none => .error .notFound
    | some child => return .directory (putEntry name (← withinDirectory change rest child) entries)

/-- Makes a directory in a directory that is there. -/
def addDirectory (tree : FileTree) (directory : List String) (name : String) :
    Except FileFault FileTree :=
  withinDirectory (fun entries => do
    if (← lookUp entries name).isSome then .error .exists
    else return putEntry name (.directory []) entries) directory tree

/-- Writes a file in a directory that is there, in place of what the file held before. -/
def replaceFile (tree : FileTree) (directory : List String) (name : String)
    (content : ByteArray) : Except FileFault FileTree :=
  withinDirectory (fun entries => do
    match ← lookUp entries name with
    | some (.directory _) => .error .isDirectory
    | _ => return putEntry name (.file content) entries) directory tree

/-- Makes a directory where some parts lead to, which are walked one after the other. What the way
up leads to is there already. -/
def addDirectoryAt (tree : FileTree) (start parts : List String) (name : String) :
    Except FileFault FileTree := do
  if name = ".." then
    let _ ← tree.walk start (parts ++ [name])
    .error .exists
  else
    tree.addDirectory (← tree.walk start parts) name

/-- Whether some parts lead to a directory. -/
def leadsToDirectory (tree : FileTree) (start parts : List String) : Bool :=
  match tree.walk start parts with
  | .ok place => (tree.at? place).any isDirectory
  | .error _ => false

/-- Makes a directory, unless it is there already: the tree then, and why there is none. -/
def ensureDirectory (tree : FileTree) (start parts : List String) (name : String) :
    FileTree × Option FileFault :=
  match tree.addDirectoryAt start parts name with
  | .ok tree => (tree, none)
  | .error fault =>
    if tree.leadsToDirectory start (parts ++ [name]) then (tree, none) else (tree, some fault)

/-- Makes the directory that some parts lead to, last part first. Where the directory above is
missing, that one is made before; what was made stays, even if the next one cannot be made. -/
def makeDirectoriesUpTo (start : List String) : List String → FileTree → FileTree × Option FileFault
  | [], tree => (tree, if tree.leadsToDirectory start [] then none else some .notFound)
  | name :: above, tree =>
    match tree.ensureDirectory start above.reverse name with
    | (tree, some .notFound) =>
      match makeDirectoriesUpTo start above tree with
      | (tree, none) => tree.ensureDirectory start above.reverse name
      | stopped => stopped
    | outcome => outcome

/-- Makes the directory at a path, with all that is missing on the way: the tree then, and why there
is none. -/
def makeDirectories (tree : FileTree) (workingDirectory : List String) (path : String) :
    FileTree × Option FileFault :=
  if path.toList.contains '\x00' then (tree, some .nulInPath)
  else if pathLimit < path.utf8ByteSize then (tree, some .nameTooLong)
  else makeDirectoriesUpTo (origin workingDirectory path) (components path).reverse tree

/-- Writes a file of a name in the directory at a path, which must be there. -/
def overwriteFile (tree : FileTree) (workingDirectory : List String) (directory name : String)
    (content : ByteArray) : Except FileFault FileTree :=
  match refusal? (join directory name) with
  | some fault => .error fault
  | none => do
    let place ← tree.walk (origin workingDirectory directory) (components directory)
    tree.replaceFile place name content

end FileTree

end FoodScan
