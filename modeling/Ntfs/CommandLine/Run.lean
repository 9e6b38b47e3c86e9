import Ntfs.CommandLine.Entry
import Ntfs.CommandLine.View
import Ntfs.Volume

/-!
# Running a job

A job is run on what its path leads to, and leaves an outcome: an exit status, what goes to standard
output, the files to write, and what there is to tell on the way.  A path that cannot be opened as a
disk ends the program with status 1, a faulty command line with status 2; what goes wrong later is
only told, reads that fail among it.
-/

namespace Ntfs.CommandLine

/-- Something told on the way. -/
structure Remark where
  level : Level
  text : String
  deriving DecidableEq, Repr

/-- What the program leaves behind. -/
structure Outcome where
  status : UInt32 := 0
  output : String := ""
  /-- Files to write, by name. -/
  files : List (String × Buffer) := []
  remarks : List Remark := []
  deriving DecidableEq, Repr

namespace Outcome

def tell (level : Level) (text : String) : Outcome := { remarks := [⟨level, text⟩] }

def warn (warnings : List Warning) : Outcome :=
  { remarks := warnings.map fun w => ⟨.warn, w.text⟩ }

def print (text : String) : Outcome := { output := text }

/-- One outcome after another. -/
instance : Append Outcome where
  append a b :=
    { status := if a.status = 0 then b.status else a.status
      output := a.output ++ b.output
      files := a.files ++ b.files
      remarks := a.remarks ++ b.remarks }

/-- What comes of a piece of work: its warnings, then what is done with its result. -/
def ofTrace {α : Type} (failed : String) (work : Trace α) (next : α → Outcome) : Outcome :=
  warn work.warnings ++
    match work.result with
    | .ok a => next a
    | .error failure => tell .error (failed ++ ": " ++ failure.message)

end Outcome

def versionText : String := "exhume_mft 0.1.0\n"

def helpText : String :=
  String.join (Choice.entries.map fun e =>
    let letter := match e.letter with
      | some c => "  -" ++ String.singleton c ++ ", "
      | none => "      "
    letter ++ "--" ++ e.name ++ "".pushn ' ' (12 - e.name.length) ++ e.purpose ++ "\n")

/-- What comes of a command line that asks for no job. -/
def Halt.outcome : Halt → Outcome
  | fault f => { status := 2, remarks := [⟨.error, f.message⟩] }
  | notice .help => .print helpText
  | notice .version => .print versionText

/-- The name of the file that the content of a record is written to. -/
def dumpName (id : UInt64) : String := "file_" ++ Hex.upper 1 id.toNat ++ ".bin"

def dump (v : Volume) (t : Table) (id : UInt64) : Outcome :=
  .ofTrace "dump failed" (v.content t id.toNat .content) fun content =>
    { files := [(dumpName id, content)] }
      ++ .tell .info (s!"dumped {content.size} bytes to " ++ dumpName id)

def bootView (json : Bool) (b : BootSector) : String :=
  (if json then b.toJson.sorted.pretty else b.report) ++ "\n"

namespace Job

/-- The range of records to parse. -/
def span (job : Job) : Option (Nat × Nat) :=
  job.range.map fun (start, stop) => (start.toNat, stop.toNat)

def runTable (job : Job) (raw : Buffer) : Outcome :=
  .ofTrace "cannot build the file table"
    (Table.build { range := job.span, source := none } raw) fun t =>
      .print (t.answer job.json job.query)

def runVolume (job : Job) (p : Partition) (disk : Disk) : Outcome :=
  .ofTrace "cannot open the volume" (Volume.openAt disk 0) fun v =>
    (if p.showsBootSector then .print (bootView job.json v.boot) else {})
    ++
    if job.query.isEmpty then {}
    else
      .ofTrace "cannot build the file table" (v.table job.span) fun t =>
        .print (t.answer job.json job.query) ++
          match p.dumps with
          | some id => dump v t id
          | none => {}

def run (job : Job) (entry : Option Entry) : Outcome :=
  match job.source with
  | .tableFile path =>
    match entry with
    | some (.file raw) => job.runTable raw
    | _ => .tell .error ("cannot read '" ++ path ++ "'")
  | .partition p =>
    match p.disk? entry with
    | .ok disk => job.runVolume p disk
    | .error reason => { status := 1, remarks := [⟨.error, reason⟩] }

end Job

end Ntfs.CommandLine
