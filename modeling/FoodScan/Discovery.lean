import FoodScan.Config
import FoodScan.FileTree
import FoodScan.LoadError

/-!
# Discovering metadata files

The metadata files of a configuration are the files below its directory whose names end
in a point and the extension of its format, in letters of either case. Names that start
with a point are passed over, directories of such names too, and subdirectories count
only on demand. Paths are listed in the order of their parts.

Files are only listed, but subdirectories are opened. One that cannot be, since its path is too
long, ends the walk, whether or not there are metadata files in it.
-/

namespace FoodScan

/-! ## Names -/

/-- Whether a name is passed over. -/
def isHidden (name : String) : Bool := name.toList.head? == some '.'

/-- Whether a name is that of a metadata file: anything, a point, and the extension of the format,
in letters of either case. -/
def isMetadataName (format : MetadataFormat) (name : String) : Bool :=
  ('.' :: format.extension.toList).isSuffixOf (name.toList.map Char.toLower)

/-! ## Walking -/

mutual

/-- The metadata files among some entries, each by the names that lead to it. -/
def filesAmong (format : MetadataFormat) (recursive : Bool) :
    List (String × FileTree) → List (List String)
  | [] => []
  | (name, node) :: rest =>
    (if isHidden name then [] else filesBelow format recursive name node) ++
      filesAmong format recursive rest

/-- The metadata files of one entry: itself, or those below it. -/
def filesBelow (format : MetadataFormat) (recursive : Bool) (name : String) :
    FileTree → List (List String)
  | .file _ => if isMetadataName format name then [[name]] else []
  | .directory entries =>
    if recursive then (filesAmong format recursive entries).map (name :: ·) else []

end

mutual

/-- The directories that the walk comes to among some entries, in the order in which it does, each
by the names that lead to it. -/
def directoriesAmong : List (String × FileTree) → List (List String)
  | [] => []
  | (name, node) :: rest =>
    (if isHidden name then [] else directoriesBelow name node) ++ directoriesAmong rest

/-- The directories of one entry: itself, and those below it. -/
def directoriesBelow (name : String) : FileTree → List (List String)
  | .file _ => []
  | .directory entries => [name] :: (directoriesAmong entries).map (name :: ·)

end

/-- Whether a path is a dash, which stands for the standard input and has no files below it. -/
def isStandardInput (path : String) : Bool :=
  match path.toList with
  | '-' :: rest =>
    (rest.splitOn '/').head? == some [] &&
      (rest.splitOn '/').all fun part => part == [] || part == ['.']
  | _ => false

/-- The order of paths by their names, the first name first. -/
def comesFirst : List String → List String → Bool
  | [], _ => true
  | _ :: _, [] => false
  | a :: as, b :: bs =>
    if a < b then true else if a = b then comesFirst as bs else false

/-- The path of a file below a directory. -/
def pathBelow (directory : String) (names : List String) : String :=
  FileTree.join directory ("/".intercalate names)

/-- Why the walk over the directory of a configuration ends before it has come to everything: the
first subdirectory that cannot be opened. None is opened unless subdirectories count. -/
def walkError? (tree : FileTree) (workingDirectory : List String) (config : Config)
    (entries : List (String × FileTree)) : Option LoadError :=
  if config.recursive && !isStandardInput config.directory then
    (directoriesAmong entries).findSome? fun names =>
      let path := pathBelow config.directory names
      match tree.find workingDirectory path with
      | .ok _ => none
      | .error fault => some (.walk config.directory path fault)
  else none

/-- The paths of the metadata files of a configuration, in the order of their parts. -/
def discover (tree : FileTree) (workingDirectory : List String) (config : Config) :
    Except LoadError (List String) :=
  match tree.entriesAt? workingDirectory config.directory with
  | none => .error (.directoryNotFound config.directory)
  | some entries =>
    match walkError? tree workingDirectory config entries with
    | some e => .error e
    | none =>
      -- the standard input has no files below it, whatever directory bears its name
      let found :=
        if isStandardInput config.directory then []
        else filesAmong config.format config.recursive entries
      .ok ((found.mergeSort comesFirst).map (pathBelow config.directory))

end FoodScan
