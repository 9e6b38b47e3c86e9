import Ntfs.CommandLine.Entry

/-!
# Places

A place is told by the parts of its absolute name.  Of the world around a program only what every
system has is known: the folders that hold the rest, and some devices.  A few places stand for
others, and a path that comes to one of them goes on at the other.
-/

namespace Ntfs.CommandLine

/-- The parts of an absolute name. -/
abbrev Place := List String

namespace Place

/-- Where the program runs: among the temporary files, under a name that no path can tell. -/
def home : Place := ["tmp", ""]

def folders : List Place :=
  [[], ["boot"], ["dev"], ["dev", "pts"], ["dev", "shm"], ["etc"], ["home"], ["media"], ["mnt"],
    ["opt"], ["proc"], ["proc", "self"], ["proc", "self", "fd"], ["root"], ["run"], ["run", "lock"],
    ["srv"], ["sys"], ["tmp"], ["usr"], ["usr", "bin"], ["usr", "lib"], ["usr", "lib64"],
    ["usr", "local"], ["usr", "sbin"], ["usr", "share"], ["usr", "src"], ["var"], ["var", "cache"],
    ["var", "lib"], ["var", "log"], ["var", "tmp"]]

/-- The devices of every system: one that is empty, and two that never end. -/
def devices : List (Place × Entry) :=
  [(["dev", "null"], .file .empty), (["dev", "zero"], .endless), (["dev", "full"], .endless)]

/-- The places that stand for others.  The program has no input, so what stands for its input is
empty. -/
def links : List (Place × Place) :=
  [(["bin"], ["usr", "bin"]), (["lib"], ["usr", "lib"]), (["lib64"], ["usr", "lib64"]),
    (["sbin"], ["usr", "sbin"]), (["var", "run"], ["run"]), (["var", "lock"], ["run", "lock"]),
    (["dev", "fd"], ["proc", "self", "fd"]), (["dev", "stdin"], ["dev", "null"]),
    (["proc", "self", "fd", "0"], ["dev", "null"]), (["proc", "self", "cwd"], home),
    (["proc", "self", "root"], [])]

def entry? (place : Place) : Option Entry :=
  if folders.contains place then some .folder else devices.lookup place

/-- Where a part of a path leads to from a folder.  An empty part and `.` stay there, and `..` goes
up, which at the root stays there too. -/
def step (place : Place) (part : String) : Place :=
  if part = "" ∨ part = "." then place
  else if part = ".." then place.dropLast
  else (links.lookup (place ++ [part])).getD (place ++ [part])

end Place

end Ntfs.CommandLine
