/-!
# Folders

The texts of the files in one folder, and what reading a path that starts there finds. A path is a
list of names divided by slashes; it is followed name by name, and the first name that leads nowhere
decides why there is no text.
-/

namespace Conquest

/-- Why a path leads to no text. -/
inductive FileError where
  | missing
  | notDirectory
  | isDirectory
  | nameTooLong
  | notText
  | other (reason : String)
deriving DecidableEq, Repr

/-- The text of a cause. -/
def FileError.message : FileError → String
  | .missing => "No such file or directory (os error 2)"
  | .notDirectory => "Not a directory (os error 20)"
  | .isDirectory => "Is a directory (os error 21)"
  | .nameTooLong => "File name too long (os error 36)"
  | .notText => "stream did not contain valid UTF-8"
  | .other reason => reason

/-- The files of a folder by name. -/
structure Folder where
  files : List (String × String)
deriving DecidableEq, Repr

namespace Folder

/-- The bytes of the longest name. -/
def longestName : Nat := 255

/-- The bytes of the longest path. -/
def longestPath : Nat := 4095

/-- Follows names in the folders above, of which nothing is known but that they are there. -/
def outside : List String → FileError
  | [] => .isDirectory
  | name :: rest =>
    if name = "" ∨ name = "." ∨ name = ".." then outside rest
    else if longestName < name.utf8ByteSize then .nameTooLong
    else .missing

/-- Follows names in the folder. A file has nothing below it, and a path that ends at the folder has
no text. -/
def follow (d : Folder) : List String → Except FileError String
  | [] => .error .isDirectory
  | name :: rest =>
    if name = "" ∨ name = "." then d.follow rest
    else if name = ".." then .error (outside rest)
    else if longestName < name.utf8ByteSize then .error .nameTooLong
    else
      match d.files.lookup name with
      | none => .error .missing
      | some text => if rest.isEmpty then .ok text else .error .notDirectory

/-- The text that a path leads to. A path that starts with a slash starts outside. -/
def read (d : Folder) (path : String) : Except FileError String :=
  if path = "" then .error .missing
  else if longestPath < path.utf8ByteSize then .error .nameTooLong
  else
    match path.splitOn "/" with
    | "" :: names => .error (outside names)
    | names => d.follow names

end Folder

end Conquest
