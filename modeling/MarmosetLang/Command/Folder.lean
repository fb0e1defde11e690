import MarmosetLang.Finding
import MarmosetLang.PathName

/-!
# Folders

A folder is a directory with files in it, given by their names seen from there.  A name with slashes
stands for a file in a directory below.  Nothing is known of what lies around the folder, except
that there are directories above it up to the root.
-/

namespace MarmosetLang
namespace Command

/-- The greatest number of bytes in a name. -/
def maxNameSize : Nat := 255

/-- The greatest number of bytes in a path. -/
def maxPathSize : Nat := 4095

/-- A directory with files in it. -/
structure Folder where
  /-- The names of the files and their bytes. -/
  files : List (String × ByteArray)

/-- A directory on the way to a file. -/
inductive Whereabouts where
  /-- The directory to which these names lead from the folder. -/
  | inside (names : List String)
  /-- A directory above the folder. -/
  | above
deriving DecidableEq, Repr

namespace Folder

/-- The names that lead from the folder to each file, and its bytes. -/
def entries (folder : Folder) : List (List String × ByteArray) :=
  folder.files.map fun (name, bytes) => ((PathName.ofText name).parts, bytes)

/-- What the given names lead to from the folder. -/
def at? (folder : Folder) (names : List String) : Finding :=
  match folder.entries.find? (·.1 = names) with
  | some (_, bytes) => .file bytes
  | none =>
      if names.isEmpty || folder.entries.any fun entry => names.isPrefixOf entry.1 then
        .obstructed .directory
      else
        .missing

/-- Follow names from a directory.  Two dots lead back to the directory around. -/
def follow (folder : Folder) (here : Whereabouts) : List String → Finding
  | [] => .obstructed .directory
  | name :: others =>
      if maxNameSize < name.utf8ByteSize then
        .obstructed .nameTooLong
      else
        match here, name with
        | .above, ".." => folder.follow .above others
        | .above, _ => .missing
        | .inside [], ".." => folder.follow .above others
        | .inside names, ".." => folder.follow (.inside names.dropLast) others
        | .inside names, name =>
            match folder.at? (names ++ [name]) with
            | .missing => .missing
            | .obstructed _ => folder.follow (.inside (names ++ [name])) others
            | .file bytes => if others.isEmpty then .file bytes else .obstructed .notDirectory

/-- What is found at a path that is followed from the folder, or from the root if it has one. -/
def find (folder : Folder) (path : PathName) : Finding :=
  if path.render.toList.contains '\x00' then .obstructed .nullInName
  else if maxPathSize < path.render.utf8ByteSize then .obstructed .nameTooLong
  else folder.follow (if path.root = "" then .inside [] else .above) path.parts

end Folder

end Command
end MarmosetLang
