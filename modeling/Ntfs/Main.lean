import Ntfs.CommandLine.Run

/-!
# The program

Opens what the command line names, runs the job on it, and carries out what comes of it.
-/

namespace Ntfs.CommandLine

def readEntry (handle : IO.FS.Handle) : IO Entry := do
  try return .file ⟨← handle.readBinToEnd⟩
  catch _ => return .folder

/-- What a path leads to; none if it cannot be opened. -/
def find? (path : String) : IO (Option Entry) := do
  try return some (← readEntry (← IO.FS.Handle.mk path .read))
  catch _ => return none

def carryOut (level : Level) (outcome : Outcome) : IO UInt32 := do
  (← IO.getStdout).putStr outcome.output
  for remark in outcome.remarks do
    if remark.level.rank ≤ level.rank then
      IO.eprintln (remark.level.name ++ ": " ++ remark.text)
  for (name, content) in outcome.files do
    try IO.FS.writeBinFile name content.data
    catch e => IO.eprintln s!"error: cannot write {name}: {e}"
  return outcome.status

/-- Run the program on the words of its command line. -/
def execute (words : List String) : IO UInt32 := do
  match Job.ofWords words with
  | .error halt => carryOut .error halt.outcome
  | .ok job => carryOut job.level (job.run (← find? job.path))

end Ntfs.CommandLine

def main (args : List String) : IO UInt32 := Ntfs.CommandLine.execute args
