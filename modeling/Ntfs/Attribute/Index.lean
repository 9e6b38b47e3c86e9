import Ntfs.Attribute.FileName
import Ntfs.Buffer.Pieces

/-!
# Indexes

A directory is an index of file names: a sorted tree of nodes.  A node has a header that says
where its entries start and end, counted from the header itself; entries follow one another by
their declared lengths up to one marked as the last.  The root node is an attribute of its own; the
other nodes are blocks with sector protection, kept in the allocation.
-/

namespace Ntfs

/-- The header of a node. -/
structure IndexNode where
  entriesOffset : UInt32
  /-- Where the used area ends. -/
  usedLength : UInt32
  allocatedSize : UInt32
  flags : UInt8
  deriving DecidableEq, Repr

namespace IndexNode

def headerSize : Nat := 13

/-- The header at a position, if all of it exists. -/
def decode? (raw : Buffer) (position : Nat) : Option IndexNode :=
  let header := raw.window position headerSize
  if header.length < headerSize then none
  else some {
    entriesOffset := Bytes.u32 header 0
    usedLength := Bytes.u32 header 4
    allocatedSize := Bytes.u32 header 8
    flags := Bytes.u8 header 12 }

def hasChildren (n : IndexNode) : Bool := n.flags &&& 1 != 0

end IndexNode

/-- An entry of an index. -/
structure IndexEntry where
  /-- The file the entry stands for. -/
  file : FileReference
  length : UInt16
  keyLength : UInt16
  flags : UInt32
  /-- The key, in an index of file names. -/
  fileName : Option FileName
  /-- The block of the node below the entry. -/
  childVcn : Option UInt64
  deriving DecidableEq, Repr

namespace IndexEntry

/-- The bytes before the key. -/
def headerSize : Nat := 16

def marksChild (flags : UInt32) : Bool := flags &&& 1 != 0

/-- Whether flags mark the last entry of a node, which has no key. -/
def marksLast (flags : UInt32) : Bool := flags &&& 2 != 0

def isLast (e : IndexEntry) : Bool := marksLast e.flags

/-- The key of the entry at `offset` in the used area of a node, read as a file name where there is
one.  No more of a key is read than a file name can need. -/
def decodeKey (fileNameKeys : Bool) (area : Buffer) (offset : Nat) (header : Bytes) :
    Noted (Option FileName) :=
  let keyLength := (Bytes.u16 header 10).toNat
  if fileNameKeys && keyLength != 0 && !marksLast (Bytes.u32 header 12) then
    FileName.decode (area.window (offset + headerSize) (min keyLength FileName.maxSize))
  else .clean none

/-- The block number in the last eight bytes of the entry at `offset`, if they exist. -/
def decodeChild? (area : Buffer) (offset length : Nat) : Option UInt64 :=
  Bytes.u64? (area.window (offset + (length - 8)) 8) 0

/-- The entry at `offset` in the used area of a node, whose header is given. -/
def decodeAt (fileNameKeys : Bool) (area : Buffer) (offset : Nat) (header : Bytes) :
    Noted IndexEntry :=
  let length := Bytes.u16 header 8
  let flags := Bytes.u32 header 12
  (decodeKey fileNameKeys area offset header).map fun fileName => {
    file := FileReference.ofWord (Bytes.u64 header 0)
    length
    keyLength := Bytes.u16 header 10
    flags
    fileName
    childVcn := if marksChild flags then decodeChild? area offset length.toNat else none }

/-- The entries from `offset` on in the used area of a node. -/
def decodeFrom (fileNameKeys : Bool) (area : Buffer) (offset : Nat) : Noted (List IndexEntry) :=
  if area.size < offset + headerSize then .clean []
  else
    let header := area.window offset headerSize
    let length := (Bytes.u16 header 8).toNat
    if length < headerSize then .note [] (.indexEntryLength offset length)
    else
      let entry := decodeAt fileNameKeys area offset header
      if marksLast (Bytes.u32 header 12) then ⟨[entry.value], entry.notes⟩
      else entry.cons (decodeFrom fileNameKeys area (offset + length))
termination_by area.size - offset
decreasing_by
  have hroom : ¬ area.size < offset + 16 := by assumption
  have hlength : ¬ ((area.window offset headerSize).u16 8).toNat < 16 := by assumption
  omega

/-- The entries of the node whose header stands at `position`. -/
def decodeNode (fileNameKeys : Bool) (raw : Buffer) (position : Nat) : Noted (List IndexEntry) :=
  match IndexNode.decode? raw position with
  | none => .note [] .indexNodeCut
  | some node =>
    let stop := position + node.usedLength.toNat
    let entries :=
      decodeFrom fileNameKeys (raw.slice 0 stop) (position + node.entriesOffset.toNat)
    let overrun := if raw.size < stop
      then [Note.indexNodeOverrun node.usedLength.toNat (raw.size - position)] else []
    ⟨entries.value, overrun ++ entries.notes⟩

end IndexEntry

def directoryIndexName : String := "$I30"

/-- The value of an index root attribute. -/
structure IndexRoot where
  /-- The code of the attribute that is indexed. -/
  indexedCode : UInt32
  collation : UInt32
  blockSize : UInt32
  clustersPerBlock : UInt8
  node : IndexNode
  entries : List IndexEntry
  deriving DecidableEq, Repr

namespace IndexRoot

def nodePosition : Nat := 0x10

/-- Whether an index of the attribute with this code has file names for keys. -/
def keysAreFileNames (indexedCode : UInt32) : Bool := indexedCode == 0x30

def decode (raw : Buffer) : Noted (Option IndexRoot) :=
  match IndexNode.decode? raw nodePosition with
  | none => .note none (.indexRootShort raw.size)
  | some node =>
    let front := raw.window 0 nodePosition
    let indexedCode := Bytes.u32 front 0
    (IndexEntry.decodeNode (keysAreFileNames indexedCode) raw nodePosition).map fun entries =>
      some {
        indexedCode
        collation := Bytes.u32 front 4
        blockSize := Bytes.u32 front 8
        clustersPerBlock := Bytes.u8 front 12
        node
        entries }

def indexesFileNames (r : IndexRoot) : Bool := keysAreFileNames r.indexedCode

end IndexRoot

/-- The value of an index allocation attribute. -/
structure IndexAllocation where
  /-- Whether the blocks were read. -/
  loaded : Bool
  /-- How many blocks were decoded. -/
  blocks : UInt64
  entries : List IndexEntry
  deriving DecidableEq, Repr

namespace IndexAllocation

/-- An allocation whose blocks were not read. -/
def unloaded : IndexAllocation := ⟨false, 0, []⟩

def nodePosition : Nat := 0x18

def defaultBlockSize : Nat := 4096

def isBlock (raw : Buffer) : Bool := raw.window 0 4 == [0x49, 0x4E, 0x44, 0x58]

def isBlockSize (n : Nat) : Bool := 512 ≤ n && 1 <<< Nat.log2 n == n

/-- The size of the blocks in `raw`: the announced one, else the one the first node allocates. -/
def blockSizeOf (raw : Buffer) (announced : Option UInt32) : Nat :=
  let allocated := Bytes.u32? (raw.window (nodePosition + 8) 4) 0
  let fromNode := allocated.map fun size => size.toNat + nodePosition
  match announced.map UInt32.toNat |>.filter isBlockSize with
  | some size => size
  | none => (fromNode.filter isBlockSize).getD defaultBlockSize

/-- What one block holds: nothing if it is unused, a note if it was torn. -/
def decodeBlock (fileNameKeys : Bool) (index : Nat) (block : Buffer) :
    Noted (Option (List IndexEntry)) :=
  if !isBlock block then .clean none
  else
    let front := block.window 0 8
    match Fixup.restore block (Bytes.u16 front 4).toNat (Bytes.u16 front 6).toNat with
    | .error fault => .note none (.indexBlock index fault)
    | .ok restored => (IndexEntry.decodeNode fileNameKeys restored nodePosition).map some

/-- What the blocks hold, where the first of them has number `index`. -/
def decodeBlocks (fileNameKeys : Bool) (index : Nat) :
    List Buffer → Noted (List (Option (List IndexEntry)))
  | [] => .clean []
  | block :: rest =>
    (decodeBlock fileNameKeys index block).cons (decodeBlocks fileNameKeys (index + 1) rest)

/-- Decode the content of an allocation.  Content that does not start with a block is one node
without a block around it. -/
def decode (raw : Buffer) (announced : Option UInt32) (fileNameKeys : Bool) :
    Noted IndexAllocation :=
  if isBlock raw then
    let size := blockSizeOf raw announced
    (decodeBlocks fileNameKeys 0 (raw.pieces size)).map fun blocks =>
      let decoded := blocks.filterMap id
      { loaded := true, blocks := UInt64.ofNat decoded.length, entries := decoded.flatten }
  else
    (IndexEntry.decodeNode fileNameKeys raw 0).map fun entries =>
      { loaded := true, blocks := 1, entries }

end IndexAllocation

end Ntfs
