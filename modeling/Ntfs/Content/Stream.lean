import Ntfs.Content.Walk
import Ntfs.Table.Basic

/-!
# Reading streams

A stream of a file may be spread over several attributes in the chain of its record.  Its content
is theirs, one after the other, cut to the length that the first extent declares.

Many streams are read in one go as messages: the chunks of each, then one message that it is done
or has failed.
-/

namespace Ntfs

/-- Which attribute of a file to read. -/
structure StreamKey where
  kind : AttributeKind
  name : Option String
  deriving DecidableEq, Repr

namespace StreamKey

/-- The content of a file: its unnamed stream. -/
def content : StreamKey := ⟨.data, none⟩

/-- Whether an attribute is the one, or a part of the one, to read. -/
def selects (key : StreamKey) (a : Attribute) : Bool := a.kind == key.kind && a.name == key.name

end StreamKey

namespace Content

/-- The parts of a stream, each with the number of the record it stands in. -/
def parts (t : Table) (id : Nat) (key : StreamKey) : List (UInt64 × Attribute) :=
  (t.chainRecords id).flatMap fun r => (r.attributes.filter key.selects).map (r.id, ·)

/-- The length that the first extent declares; without one there is no limit but the word. -/
def limit (parts : List (UInt64 × Attribute)) : Nat :=
  match parts.find? (·.2.isFirstExtent) with
  | some (_, a) => a.contentSize.toNat
  | none => maxWord

/-- Read the parts of a stream, at most `limit` bytes of them.  Returns how many bytes were handed
over. -/
def walkParts (disk : Disk) (g : Geometry) :
    (limit : Nat) → List (UInt64 × Attribute) → Trace Nat
  | _, [] => .done 0
  | limit, (record, a) :: rest =>
    if limit = 0 then .done 0
    else
      (walk disk g record limit a).andThen fun produced =>
        (walkParts disk g (limit - produced) rest).map (produced + ·)

/-- Hand over the content of a stream chunk by chunk.  Returns how many bytes were handed over. -/
def walkStream (disk : Disk) (g : Geometry) (t : Table) (id : Nat) (key : StreamKey) :
    Trace Nat :=
  if id < t.size then
    match parts t id key with
    | [] => .fail (.missing id (.stream key.kind))
    | found => walkParts disk g (limit found) found
  else .fail (.outsideTable id)

def ofStream (disk : Disk) (g : Geometry) (t : Table) (id : Nat) (key : StreamKey) :
    Trace Buffer :=
  (walkStream disk g t id key).collect

/-- A message about the content of many streams. -/
inductive Message where
  | data (record : Nat) (bytes : Buffer)
  | done (record size : Nat)
  | failed (record : Nat) (reason : String)
  deriving DecidableEq, Repr

def messagesOf (id : Nat) (t : Trace Nat) : List Message :=
  t.chunks.map (.data id) ++ [match t.result with
    | .ok size => .done id size
    | .error failure => .failed id failure.message]

/-- Read the same stream of many records.  A record that fails has its message, and the next one is
read. -/
def messages (disk : Disk) (g : Geometry) (t : Table) (ids : List Nat) (key : StreamKey) :
    Trace (List Message) :=
  let walks := ids.map fun id => (id, walkStream disk g t id key)
  { requests := walks.flatMap (·.2.requests)
    chunks := []
    warnings := walks.flatMap (·.2.warnings)
    result := .ok (walks.flatMap fun (id, walk) => messagesOf id walk) }

end Content

end Ntfs
