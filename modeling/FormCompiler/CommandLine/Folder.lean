/-!
# Files and the paths to them

A command names its file by a path, which is followed name by name from the
folder that the command works in.  Only a folder has names below it, so a
path through a file fails, a final slash included.  Of what lies above the
working folder nothing is known but that it is made of folders.
-/

namespace FormCompiler.CommandLine

/-- Why a file cannot be read. -/
inductive FileError where
  | notFound
  | denied
  | invalidText
  | isFolder
  | notFolder
  | nameTooLong
  | other (description : String)
deriving DecidableEq, Repr

def FileError.message (path : String) : FileError → String
  | .notFound => s!"cannot find file '{path}'"
  | .denied => s!"permission denied reading '{path}'"
  | .invalidText => s!"'{path}' contains invalid UTF-8 data"
  | .isFolder => s!"error reading '{path}': Is a directory (os error 21)"
  | .notFolder => s!"error reading '{path}': Not a directory (os error 20)"
  | .nameTooLong =>
      s!"error reading '{path}': File name too long (os error 36)"
  | .other description => s!"error reading '{path}': {description}"

/-- The bytes that a name may have. -/
def longestName : Nat := 255

/-- The bytes that a path may have. -/
def longestPath : Nat := 4095

/-- Where a path leads: to the names below the working folder that it goes
through, or to a folder above. -/
inductive Place where
  | below (names : List String)
  | above
deriving DecidableEq, Repr

/-- The folder that a place lies in. -/
def Place.parent : Place → Place
  | .below [] | .above => .above
  | .below (name :: names) => .below (name :: names).dropLast

/-- A working folder: the texts of its files by their paths. -/
structure Folder where
  files : List (String × String)
deriving DecidableEq, Repr

namespace Folder

/-- The text of the file at a place. -/
def text? (folder : Folder) : Place → Option String
  | .below names => folder.files.lookup ("/".intercalate names)
  | .above => none

/-- Whether a place is a folder.  A folder below the working folder is one
that a file lies in. -/
def isFolderAt (folder : Folder) : Place → Bool
  | .below [] | .above => true
  | .below names =>
      let start := "/".intercalate names ++ "/"
      folder.files.any fun file => file.1.startsWith start

/-- Follows a name.  An empty one, as between two slashes, leads nowhere
else. -/
def follow (folder : Folder) (place : Place) (name : String) :
    Except FileError Place :=
  if !folder.isFolderAt place then .error .notFolder
  else if name = "" || name = "." then .ok place
  else if name = ".." then .ok place.parent
  else if longestName < name.utf8ByteSize then .error .nameTooLong
  else
    match place with
    | .above => .error .notFound
    | .below names =>
        let next := Place.below (names ++ [name])
        if (folder.text? next).isSome || folder.isFolderAt next then .ok next
        else .error .notFound

/-- Follows names in turn. -/
def followAll (folder : Folder) : Place → List String → Except FileError Place
  | place, [] => .ok place
  | place, name :: names =>
      match folder.follow place name with
      | .error error => .error error
      | .ok next => folder.followAll next names

/-- The place that a path leads to.  A path that begins with a slash starts
above the working folder. -/
def locate (folder : Folder) (path : String) : Except FileError Place :=
  if path.isEmpty then .error .notFound
  else if longestPath < path.utf8ByteSize then .error .nameTooLong
  else
    let start := if path.startsWith "/" then .above else .below []
    folder.followAll start (path.splitOn "/")

/-- Reads the file that a path leads to. -/
def read (folder : Folder) (path : String) : Except FileError String :=
  match folder.locate path with
  | .error error => .error error
  | .ok place =>
      match folder.text? place with
      | some text => .ok text
      | none => .error .isFolder

end Folder

end FormCompiler.CommandLine
