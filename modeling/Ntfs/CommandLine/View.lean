import Ntfs.CommandLine.Job
import Ntfs.Json.Printer
import Ntfs.Record.Json
import Ntfs.Record.Report
import Ntfs.Table.Path
import Ntfs.Table.Search
import Ntfs.Table.Sizes

/-!
# What is shown of a table

A single record is shown in full, several as a list with a line each.  Both have a text form and a
JSON form, whose members are sorted by name.
-/

namespace Ntfs.Table

def fileJson (t : Table) (r : Record) : Json :=
  let id := r.id.toNat
  r.summary
    |>.set "path" (.str ((t.path? id).getD ""))
    |>.set "logical_size" (word64 (t.logicalSize? id))
    |>.set "physical_size" (word64 (t.physicalSize? id))
    |>.set "chain" (Json.list Json.nat (t.chain id))

def fileText (t : Table) (r : Record) : String :=
  "Path: " ++ (t.path? r.id.toNat).getD "" ++ "\n" ++ r.report ++ "\n"

def showFile (t : Table) (json : Bool) (r : Record) : String :=
  if json then (t.fileJson r).sorted.compact ++ "\n" else t.fileText r

def rowJson (t : Table) (r : Record) : Json :=
  .obj [("id", .nat r.id.toNat), ("status", .str r.status.name),
    ("path", Json.opt Json.str (t.path? r.id.toNat)),
    ("size", word64 (t.logicalSize? r.id.toNat))]

/-- A record in a list, as a line of fields divided by tabs. -/
def rowText (t : Table) (r : Record) : String :=
  let fields := [toString r.id, r.status.name, toString ((t.logicalSize? r.id.toNat).getD 0),
    (t.path? r.id.toNat).getD ""]
  "\t".intercalate fields ++ "\n"

def showList (t : Table) (json : Bool) (records : List Record) : String :=
  if json then
    (Json.obj [("records", Json.list t.rowJson records)]).sorted.pretty ++ "\n"
  else String.join (records.map t.rowText)

/-- What a query asks for: the record of a number, then all records, those of a name, and those of
an extension.  Nothing is shown for a number outside the table. -/
def answer (t : Table) (json : Bool) (q : CommandLine.Query) : String :=
  let file := (q.file.bind fun id => t.get? id.toNat).map (t.showFile json)
  let lists := (if q.all then [t.validRecords] else [])
    ++ (q.name.map t.withName).toList ++ (q.extension.map t.withExtension).toList
  file.getD "" ++ String.join (lists.map (t.showList json))

end Ntfs.Table
