import Ntfs.CommandLine.Place
import Ntfs.CommandLine.Run

/-!
# The folder a program runs in

A folder is the files below it, each by the parts of its name.  A path of the command line is
followed part by part, from the folder or, if it is absolute, from the root; every part needs a
folder to stand in.  `Folder.run` is the program as a function of its folder and its words.
-/

namespace Ntfs.CommandLine

/-- The files of a folder and of the folders in it. -/
structure Folder where
  files : List (List String × Buffer)

namespace Folder

/-- What stands below the folder: a file, or a folder if it is this one or holds a file. -/
def below? (folder : Folder) (name : List String) : Option Entry :=
  let isFolder := name.isEmpty || folder.files.any fun (file, _) =>
    name.isPrefixOf file && name.length < file.length
  if isFolder then some .folder else (folder.files.lookup name).map .file

def entryAt? (folder : Folder) (place : Place) : Option Entry :=
  if Place.home.isPrefixOf place then folder.below? (place.drop Place.home.length)
  else place.entry?

/-- What the parts of a path lead to from a place. -/
def follow? (folder : Folder) (place : Place) : List String → Option Entry
  | [] => folder.entryAt? place
  | part :: rest =>
    match folder.entryAt? place with
    | some .folder => folder.follow? (place.step part) rest
    | _ => none

/-- Paths of this many bytes or more lead nowhere. -/
def pathLimit : Nat := 4096

/-- What a path leads to, if that is anything.  The empty path leads nowhere. -/
def find? (folder : Folder) (path : String) : Option Entry :=
  if pathLimit ≤ path.utf8ByteSize then none
  else
    match path.splitOn "/" with
    | [""] => none
    | "" :: parts => folder.follow? [] parts
    | parts => folder.follow? Place.home parts

def ofFiles (files : List (String × Buffer)) : Folder :=
  ⟨files.map fun (name, content) =>
    ((name.splitOn "/").filter fun part => part ≠ "" ∧ part ≠ ".", content)⟩

def run (folder : Folder) (words : List String) : Outcome :=
  match Job.ofWords words with
  | .error halt => halt.outcome
  | .ok job => job.run (folder.find? job.path)

end Folder

end Ntfs.CommandLine
