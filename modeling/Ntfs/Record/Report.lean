import Ntfs.Attribute.Describe
import Ntfs.Record.Basic
import Ntfs.Text.Grid
import Ntfs.Text.Utf8
import Ntfs.Time.Rfc3339

/-!
# Records as text

The text view of a record: a table of its header and, for a record that carries data, tables of
its attributes, times, names and named streams.
-/

namespace Ntfs.Record

def unknown : String := "\u2011"

def stampText (t : Option Instant) : String := (t.map Rfc3339.offset).getD unknown

def numberText (n : Option UInt32) : String := (n.map toString).getD unknown

def headerRows (r : Record) : List (List String) :=
  [["MFT Entry Header Values"],
   ["Entry", toString r.id],
   ["Signature", Utf8.decode (Bytes.ofNatLE 4 r.header.signature.toNat)],
   ["Sequence", toString r.header.sequence],
   ["$LogFile Sequence Number", toString r.header.logSequence],
   ["Flags", namedFlags RecordHeader.flagNames r.header.flags.toUInt32],
   ["Links", toString r.header.hardLinks]]
  ++ (if r.isExtension then [["Base record", toString r.header.base.record]] else [])
  ++ (r.parent.toList.map fun p => ["Parent", toString p])
  ++ (r.link.toList.map fun l => ["Linked record", toString l])
  ++ (r.logicalSize?.toList.map fun size => ["Logical size", toString size])

def attributeRows (r : Record) : List (List String) :=
  ["Attributes", "Name", "Status", "Size"] :: r.attributes.map fun a =>
    [a.kind.name ++ " (0x" ++ Hex.upper 1 a.kind.code.toNat ++ s!"\u2011#{a.header.id})",
     a.name.getD "N/A", a.residencyName, toString a.contentSize]

def standardRows (s : StandardInformation) : List (List String) :=
  [["$STANDARD_INFORMATION"],
   ["Created", stampText s.stamps.created],
   ["File Modified", stampText s.stamps.modified],
   ["MFT Modified", stampText s.stamps.recordModified],
   ["Accessed", stampText s.stamps.accessed],
   ["Flags", s.flagNames],
   ["Owner ID", numberText s.ownerId],
   ["Security ID", numberText s.securityId]]
  ++ (s.journalSequence.toList.map fun u => ["Last USN", toString u])

def nameRows (f : FileName) : List (List String) :=
  [["Name", f.name],
   ["Namespace", f.space.name],
   ["Parent MFT", s!"{f.parent.record} (seq {f.parent.sequence})"],
   ["Allocated", toString f.allocatedSize],
   ["Actual", toString f.realSize],
   ["\u2011 Created", stampText f.stamps.created],
   ["\u2011 Modified", stampText f.stamps.modified],
   ["\u2011 MFT Mod", stampText f.stamps.recordModified],
   ["\u2011 Accessed", stampText f.stamps.accessed],
   ["", ""]]

def streamRows (streams : List AlternateStream) : List (List String) :=
  ["Alternate Data Streams"] :: ["Name", "Size", "Resident"] :: streams.map fun s =>
    [s.name, toString s.size, if s.resident then "Yes" else "No"]

/-- The tables shown after the header's. -/
def detailTables (r : Record) : List (List (List String)) :=
  [r.attributeRows]
  ++ (r.standardInformation?.toList.map standardRows)
  ++ (if r.fileNames.isEmpty then []
      else [["$FILE_NAME Attributes"] :: r.fileNames.flatMap nameRows])
  ++ (if r.alternateStreams.isEmpty then [] else [streamRows r.alternateStreams])

def report (r : Record) : String :=
  Grid.render r.headerRows
    ++ (if r.isValid then
          String.join (r.detailTables.map fun table => "\n" ++ Grid.render table)
        else "")

end Ntfs.Record
