import Ntfs.Attribute.Index
import Ntfs.Proofs.Bytes.Window

/-!
# Stored index nodes

An entry of an index is laid out as a header of 16 bytes, its key, and the number of the block below
it in its last eight bytes if there is such a block; what stands between the two is arbitrary.  The
entries of a node stand back to back, from any place behind the header of the node on, and the last of
them is marked.  `entries_read_back` says that they come back in order with all they hold: neither the
place of a node nor the gaps in it nor what follows its used area is misread for an entry.
-/

namespace Ntfs

open Bytes

/-- An entry of an index as it is laid out. -/
structure StoredIndexEntry where
  file : FileReference
  /-- The declared length. -/
  length : UInt16
  key : Bytes
  flags : UInt32
  /-- The block of the node below the entry. -/
  child : Option UInt64
  /-- The bytes of the entry before anything is written. -/
  filler : Bytes
  length_filler : filler.length = length.toNat
  file_lt : file.record.toNat < FileReference.recordBound
  isSome_child : child.isSome = IndexEntry.marksChild flags
  fits : IndexEntry.headerSize + key.length + (if child.isSome then 8 else 0) ≤ length.toNat

namespace StoredIndexEntry

variable (e : StoredIndexEntry)

def head : Bytes :=
  [ofNatLE 8 e.file.toWord.toNat, ofNatLE 2 e.length.toNat, ofNatLE 2 e.key.length,
    ofNatLE 4 e.flags.toNat].flatten

def childBytes : Bytes :=
  match e.child with
  | none => []
  | some vcn => ofNatLE 8 vcn.toNat

def encode : Bytes :=
  e.filler.writeAll
    [⟨0, e.head⟩, ⟨IndexEntry.headerSize, e.key⟩, ⟨e.length.toNat - 8, e.childBytes⟩]

def isLast : Bool := IndexEntry.marksLast e.flags

/-- What the key says: it is a file name if the index has such keys, but the last entry has no key. -/
def name (fileNameKeys : Bool) : Noted (Option FileName) :=
  if fileNameKeys = true ∧ e.key ≠ [] ∧ e.isLast = false then FileName.decode e.key else .clean none

def toEntry (fileNameKeys : Bool) : IndexEntry where
  file := e.file
  length := e.length
  keyLength := UInt16.ofNat e.key.length
  flags := e.flags
  fileName := (e.name fileNameKeys).value
  childVcn := e.child

/-! ## The layout -/

theorem length_head : e.head.length = IndexEntry.headerSize := rfl

/-- The number of the block below stands behind the key. -/
theorem child_between : Placed.Between ⟨e.length.toNat - 8, e.childBytes⟩
    (IndexEntry.headerSize + e.key.length) e.length.toNat := by
  have hfits := e.fits
  cases hchild : e.child with
  | none => exact .inl (by rw [childBytes, hchild])
  | some vcn =>
      rw [hchild, Option.isSome_some, if_pos rfl] at hfits
      refine .inr ⟨?_, ?_⟩
      · show IndexEntry.headerSize + e.key.length ≤ e.length.toNat - 8
        omega
      · rw [childBytes, hchild, length_ofNatLE]
        show e.length.toNat - 8 + 8 ≤ e.length.toNat
        omega

theorem headed : Headed e.filler e.head
    [⟨IndexEntry.headerSize, e.key⟩, ⟨e.length.toNat - 8, e.childBytes⟩] where
  head_le := by
    have hfits := e.fits
    rw [e.length_head, e.length_filler]
    omega
  between := by
    have hfits := e.fits
    intro p hp
    rw [e.length_head, e.length_filler]
    simp only [List.mem_cons, List.not_mem_nil, or_false] at hp
    obtain rfl | rfl := hp
    · exact .inr ⟨Nat.le_refl _, Nat.le_trans (Nat.le_add_right _ _) hfits⟩
    · exact e.child_between.mono (Nat.le_add_right _ _)
  apart := List.pairwise_pair.mpr (e.child_between.apart (Nat.le_refl _))

theorem length_encode : e.encode.length = e.length.toNat :=
  e.headed.length_writeAll.trans e.length_filler

theorem headerSize_le : IndexEntry.headerSize ≤ e.length.toNat := by
  have hfits := e.fits
  omega

theorem part_key : e.encode.part IndexEntry.headerSize e.key.length = e.key :=
  e.headed.part_of_mem List.mem_cons_self

theorem part_child : e.encode.part (e.length.toNat - 8) e.childBytes.length = e.childBytes :=
  e.headed.part_of_mem (List.mem_cons_of_mem _ List.mem_cons_self)

theorem toNat_keyLength : (UInt16.ofNat e.key.length).toNat = e.key.length := by
  have hfits := e.fits
  have hlength : e.length.toNat < UInt16.size := e.length.toNat_lt
  exact UInt16.toNat_ofNat_of_lt' (by omega)

/-! ## Reading an entry -/

section Reading

variable {e} {area : Buffer} {offset : Nat} {after : Bytes} (fileNameKeys : Bool)

theorem u16_keyLength : u16 e.head 10 = UInt16.ofNat e.key.length := by
  apply u16_of_part
  rw [e.toNat_keyLength]
  rfl

theorem window_head (h : area.toList.drop offset = e.encode ++ after) :
    area.window offset IndexEntry.headerSize = e.head := by
  have hle : IndexEntry.headerSize ≤ e.encode.length := by
    rw [e.length_encode]
    exact e.headerSize_le
  rw [Buffer.window_front_of_item h hle, ← e.length_head]
  exact e.headed.take_writeAll

/-- The key of an entry is read back.  No more of it is read than a file name can need, and that is all of
it that counts. -/
theorem decodeKey_encode (h : area.toList.drop offset = e.encode ++ after) :
    IndexEntry.decodeKey fileNameKeys area offset e.head = e.name fileNameKeys := by
  have hflags : u32 e.head 12 = e.flags := u32_of_part rfl
  have hfits := e.fits
  have hinside : IndexEntry.headerSize + min e.key.length FileName.maxSize ≤ e.encode.length := by
    rw [e.length_encode]
    omega
  have hkey : FileName.decode (area.window (offset + IndexEntry.headerSize)
      (min e.key.length FileName.maxSize)) = FileName.decode e.key := by
    have htake : e.encode.part IndexEntry.headerSize (min e.key.length FileName.maxSize) =
        e.key.take FileName.maxSize := by
      calc e.encode.part IndexEntry.headerSize (min e.key.length FileName.maxSize)
          = (e.encode.part IndexEntry.headerSize e.key.length).take FileName.maxSize := by
            rw [part, part, List.take_take, Nat.min_comm]
        _ = e.key.take FileName.maxSize := by rw [e.part_key]
    rw [Buffer.window_of_item h hinside, htake, FileName.decode_take _ (Nat.le_refl _)]
  have hcond : (fileNameKeys && e.key.length != 0 && !IndexEntry.marksLast e.flags) = true ↔
      fileNameKeys = true ∧ e.key ≠ [] ∧ e.isLast = false := by
    simp [isLast, and_assoc]
  simp only [IndexEntry.decodeKey, u16_keyLength, hflags, e.toNat_keyLength, hkey, hcond]
  rfl

theorem decodeChild?_encode (h : area.toList.drop offset = e.encode ++ after) :
    (if IndexEntry.marksChild e.flags then IndexEntry.decodeChild? area offset e.length.toNat
      else none) = e.child := by
  have hfits := e.fits
  rw [← e.isSome_child]
  cases hchild : e.child with
  | none => rfl
  | some vcn =>
      rw [hchild, Option.isSome_some, if_pos rfl] at hfits
      have hinside : e.length.toNat - 8 + 8 ≤ e.encode.length := by
        rw [e.length_encode]
        omega
      have hbytes : e.encode.part (e.length.toNat - 8) 8 = ofNatLE 8 vcn.toNat := by
        have hpart := e.part_child
        rwa [childBytes, hchild, length_ofNatLE] at hpart
      have hword : word? (ofNatLE 8 vcn.toNat) 0 8 = some vcn.toNat :=
        word?_of_part rfl vcn.toNat_lt
      rw [Option.isSome_some, if_pos rfl, IndexEntry.decodeChild?, Buffer.window_of_item h hinside,
        hbytes, u64?, hword, Option.map_some, UInt64.ofNat_toNat]

/-- An entry is read back wherever its bytes stand in a node. -/
theorem decodeAt_encode (h : area.toList.drop offset = e.encode ++ after) :
    IndexEntry.decodeAt fileNameKeys area offset e.head =
      ⟨e.toEntry fileNameKeys, (e.name fileNameKeys).notes⟩ := by
  have hfile : u64 e.head 0 = e.file.toWord := u64_of_part rfl
  have hlength : u16 e.head 8 = e.length := u16_of_part rfl
  have hflags : u32 e.head 12 = e.flags := u32_of_part rfl
  simp only [IndexEntry.decodeAt, decodeKey_encode fileNameKeys h, hfile, hlength, hflags,
    u16_keyLength, decodeChild?_encode h, FileReference.ofWord_toWord e.file_lt]
  rfl

/-- Where an entry stands, it is read, and the walk goes on behind it unless it was the last one. -/
theorem decodeFrom_encode (h : area.toList.drop offset = e.encode ++ after) :
    IndexEntry.decodeFrom fileNameKeys area offset =
      if e.isLast then ⟨[e.toEntry fileNameKeys], (e.name fileNameKeys).notes⟩
      else (⟨e.toEntry fileNameKeys, (e.name fileNameKeys).notes⟩ : Noted IndexEntry).cons
        (IndexEntry.decodeFrom fileNameKeys area (offset + e.length.toNat)) := by
  have hlength : u16 e.head 8 = e.length := u16_of_part rfl
  have hflags : u32 e.head 12 = e.flags := u32_of_part rfl
  have hheader := e.headerSize_le
  have hpos : 0 < IndexEntry.headerSize := by decide
  have hsize := congrArg List.length h
  rw [List.length_drop, List.length_append, e.length_encode, Buffer.length_toList] at hsize
  have hroom : ¬ area.size < offset + IndexEntry.headerSize := by omega
  rw [IndexEntry.decodeFrom, if_neg hroom, window_head h]
  simp only [hlength, hflags, decodeAt_encode fileNameKeys h]
  rw [if_neg (Nat.not_lt.mpr hheader)]
  rfl

/-- The walk finds the entries in order and ends with the last one, whatever follows it. -/
theorem decodeFrom_encodeAll {entries : List StoredIndexEntry} {last : StoredIndexEntry}
    (hentries : ∀ e ∈ entries, e.isLast = false) (hlast : last.isLast = true)
    (h : area.toList.drop offset = entries.flatMap encode ++ last.encode ++ after) :
    IndexEntry.decodeFrom fileNameKeys area offset =
      ⟨(entries ++ [last]).map (toEntry · fileNameKeys),
        (entries ++ [last]).flatMap fun e => (e.name fileNameKeys).notes⟩ := by
  induction entries generalizing offset with
  | nil =>
      rw [List.flatMap_nil, List.nil_append] at h
      rw [decodeFrom_encode fileNameKeys h, if_pos hlast, List.nil_append, List.flatMap_singleton]
      rfl
  | cons e rest ih =>
      obtain ⟨he, hrest⟩ := List.forall_mem_cons.mp hentries
      rw [List.flatMap_cons, List.append_assoc, List.append_assoc] at h
      have hbehind : area.toList.drop (offset + e.length.toNat) =
          rest.flatMap encode ++ last.encode ++ after := by
        rw [← List.drop_drop, h, ← e.length_encode, List.drop_left, List.append_assoc]
      rw [decodeFrom_encode fileNameKeys h, if_neg (by rw [he]; exact Bool.false_ne_true),
        ih hrest hbehind]
      rfl

end Reading

end StoredIndexEntry

/-- A node as it is laid out. -/
structure StoredNode where
  header : IndexNode
  entries : List StoredIndexEntry
  last : StoredIndexEntry
  /-- The bytes of the node and of what follows it, before anything is written. -/
  filler : Bytes
  isLast_entries : ∀ e ∈ entries, e.isLast = false
  isLast_last : last.isLast = true
  header_le : IndexNode.headerSize ≤ header.entriesOffset.toNat
  used_eq : header.usedLength.toNat =
    header.entriesOffset.toNat + (entries.flatMap StoredIndexEntry.encode ++ last.encode).length
  used_le : header.usedLength.toNat ≤ filler.length

def IndexNode.encode (h : IndexNode) : Bytes :=
  [ofNatLE 4 h.entriesOffset.toNat, ofNatLE 4 h.usedLength.toNat, ofNatLE 4 h.allocatedSize.toNat,
    [h.flags]].flatten

namespace StoredNode

variable (n : StoredNode) (fileNameKeys : Bool)

def body : Bytes := n.entries.flatMap StoredIndexEntry.encode ++ n.last.encode

def encode : Bytes := n.filler.writeAll [⟨0, n.header.encode⟩, ⟨n.header.entriesOffset.toNat, n.body⟩]

def toEntries : List IndexEntry := (n.entries ++ [n.last]).map (·.toEntry fileNameKeys)

def notes : List Note := (n.entries ++ [n.last]).flatMap fun e => (e.name fileNameKeys).notes

theorem length_header : n.header.encode.length = IndexNode.headerSize := rfl

theorem headed : Headed n.filler n.header.encode [⟨n.header.entriesOffset.toNat, n.body⟩] where
  head_le := by
    have hheader := n.header_le
    have hused := n.used_eq
    have hfits := n.used_le
    rw [n.length_header]
    omega
  between := by
    intro p hp
    rw [List.mem_singleton.mp hp, n.length_header]
    exact .inr ⟨n.header_le, n.used_eq ▸ n.used_le⟩
  apart := List.pairwise_singleton _ _

theorem length_encode : n.encode.length = n.filler.length := n.headed.length_writeAll

theorem part_body : n.encode.part n.header.entriesOffset.toNat n.body.length = n.body :=
  n.headed.part_of_mem List.mem_cons_self

section Reading

variable {n} {raw : Buffer} {position : Nat}

theorem decode?_encode (h : raw.toList.drop position = n.encode) :
    IndexNode.decode? raw position = some n.header := by
  have hwindow : raw.window position IndexNode.headerSize = n.header.encode := by
    rw [Buffer.window_zero_of_drop h]
    exact n.headed.take_writeAll
  have hentriesOffset : u32 n.header.encode 0 = n.header.entriesOffset := u32_of_part rfl
  have husedLength : u32 n.header.encode 4 = n.header.usedLength := u32_of_part rfl
  have hallocatedSize : u32 n.header.encode 8 = n.header.allocatedSize := u32_of_part rfl
  have hflags : u8 n.header.encode 12 = n.header.flags := u8_of_part rfl
  have hwhole : ¬ n.header.encode.length < IndexNode.headerSize := Nat.lt_irrefl _
  simp only [IndexNode.decode?, hwindow, if_neg hwhole, hentriesOffset, husedLength, hallocatedSize,
    hflags]

/-- The used area ends with the last entry. -/
theorem drop_area (h : raw.toList.drop position = n.encode) :
    (raw.slice 0 (position + n.header.usedLength.toNat)).toList.drop
      (position + n.header.entriesOffset.toNat) = n.body := by
  have hused : position + n.header.usedLength.toNat - (position + n.header.entriesOffset.toNat) =
      n.body.length := by
    rw [n.used_eq, ← body]
    omega
  rw [Buffer.toList_slice, List.drop_zero, List.drop_take, hused, ← List.drop_drop, h, ← part,
    n.part_body]

/-- The entries of a node are read back in their order, with the notes on their file names. -/
theorem decodeNode_encode (h : raw.toList.drop position = n.encode) :
    IndexEntry.decodeNode fileNameKeys raw position =
      ⟨n.toEntries fileNameKeys, n.notes fileNameKeys⟩ := by
  have hsize := congrArg List.length h
  rw [List.length_drop, Buffer.length_toList, n.length_encode] at hsize
  have hfits := n.used_le
  have hpos : 0 < n.header.usedLength.toNat := by
    have hheader := n.header_le
    have hused := n.used_eq
    rw [IndexNode.headerSize] at hheader
    omega
  have hinside : ¬ raw.size < position + n.header.usedLength.toNat := by omega
  have hwalk := StoredIndexEntry.decodeFrom_encodeAll fileNameKeys n.isLast_entries n.isLast_last
    (by rw [drop_area h, List.append_nil]; rfl)
  simp only [IndexEntry.decodeNode, decode?_encode h, if_neg hinside, hwalk, List.nil_append]
  rfl

end Reading

end StoredNode

/-- The root of an index as it is laid out. -/
structure StoredRoot where
  indexedCode : UInt32
  collation : UInt32
  blockSize : UInt32
  clustersPerBlock : UInt8
  /-- The three bytes before the node, which are not read. -/
  reserved : UInt8 × UInt8 × UInt8
  node : StoredNode

namespace StoredRoot

variable (r : StoredRoot)

def front : Bytes :=
  [ofNatLE 4 r.indexedCode.toNat, ofNatLE 4 r.collation.toNat, ofNatLE 4 r.blockSize.toNat,
    [r.clustersPerBlock, r.reserved.1, r.reserved.2.1, r.reserved.2.2]].flatten

def encode : Bytes := r.front ++ r.node.encode

def keysAreFileNames : Bool := IndexRoot.keysAreFileNames r.indexedCode

def toRoot : IndexRoot where
  indexedCode := r.indexedCode
  collation := r.collation
  blockSize := r.blockSize
  clustersPerBlock := r.clustersPerBlock
  node := r.node.header
  entries := r.node.toEntries r.keysAreFileNames

theorem length_front : r.front.length = IndexRoot.nodePosition := rfl

theorem drop_encode : (Buffer.ofList r.encode).toList.drop IndexRoot.nodePosition = r.node.encode := by
  rw [Buffer.toList_ofList, encode, List.drop_left' r.length_front]

/-- An index root is read back with the entries of its node. -/
theorem decode_encode :
    IndexRoot.decode (.ofList r.encode) = ⟨some r.toRoot, r.node.notes r.keysAreFileNames⟩ := by
  have hfront : (Buffer.ofList r.encode).window 0 IndexRoot.nodePosition = r.front := by
    rw [Buffer.window_eq, List.drop_zero, Buffer.toList_ofList, encode]
    exact List.take_left' r.length_front
  have hindexedCode : u32 r.front 0 = r.indexedCode := u32_of_part rfl
  have hcollation : u32 r.front 4 = r.collation := u32_of_part rfl
  have hblockSize : u32 r.front 8 = r.blockSize := u32_of_part rfl
  have hclustersPerBlock : u8 r.front 12 = r.clustersPerBlock := u8_of_part rfl
  have hnode := StoredNode.decode?_encode r.drop_encode
  have hentries := StoredNode.decodeNode_encode r.keysAreFileNames r.drop_encode
  rw [keysAreFileNames] at hentries
  unfold IndexRoot.decode
  simp only [hnode, hfront, hindexedCode, hcollation, hblockSize, hclustersPerBlock, hentries]
  rfl

end StoredRoot

/-- The entries of a node come back in order, up to the last one and with it, from the root of an index
and from a node that stands alone; the notes are those on the file names. -/
theorem StoredNode.entries_read_back :
    (∀ r : StoredRoot, IndexRoot.decode (.ofList r.encode) =
      ⟨some r.toRoot, r.node.notes r.keysAreFileNames⟩) ∧
    ∀ (n : StoredNode) (announced : Option UInt32) (fileNameKeys : Bool),
      IndexAllocation.isBlock (.ofList n.encode) = false →
      IndexAllocation.decode (.ofList n.encode) announced fileNameKeys =
        ⟨⟨true, 1, n.toEntries fileNameKeys⟩, n.notes fileNameKeys⟩ := by
  refine ⟨StoredRoot.decode_encode, ?_⟩
  intro n announced fileNameKeys hbare
  have hdrop : (Buffer.ofList n.encode).toList.drop 0 = n.encode := by
    rw [List.drop_zero, Buffer.toList_ofList]
  rw [IndexAllocation.decode, hbare, if_neg Bool.false_ne_true, decodeNode_encode fileNameKeys hdrop]
  rfl

/-- The entry of the file `a`, with a gap between its key and the block below it. -/
def StoredIndexEntry.padded : StoredIndexEntry where
  file := ⟨40, 1⟩
  length := 96
  key := List.replicate 64 0 ++ [1, 1, 0x61, 0]
  flags := 1
  child := some 3
  filler := List.replicate 96 0xEE
  length_filler := List.length_replicate
  file_lt := by decide
  isSome_child := rfl
  fits := by decide

/-- A last entry with a block below it. -/
def StoredIndexEntry.closing : StoredIndexEntry where
  file := ⟨0, 0⟩
  length := 24
  key := []
  flags := 3
  child := some 4
  filler := List.replicate 24 0xEE
  length_filler := List.length_replicate
  file_lt := by decide
  isSome_child := rfl
  fits := by decide

/-- A node with gaps before and behind its entries. -/
def StoredNode.gapped : StoredNode where
  header := ⟨24, 144, 0xE8, 1⟩
  entries := [.padded]
  last := .closing
  filler := List.replicate 150 0xEE
  isLast_entries := by decide
  isLast_last := rfl
  header_le := by decide
  used_eq := by
    rw [List.flatMap_singleton, List.length_append, StoredIndexEntry.length_encode,
      StoredIndexEntry.length_encode]
    rfl
  used_le := by
    rw [List.length_replicate]
    decide

def StoredRoot.directory : StoredRoot := ⟨0x30, 1, 4096, 1, (0, 0, 0), .gapped⟩

/-- A bare node and a root, with gaps before and behind the entries. -/
theorem StoredNode.entries_read_back_gapped :
    IndexAllocation.isBlock (.ofList gapped.encode) = false ∧
    (IndexAllocation.decode (.ofList gapped.encode) none false).value =
      ⟨true, 1, [⟨⟨40, 1⟩, 96, 68, 1, none, some 3⟩, ⟨⟨0, 0⟩, 24, 0, 3, none, some 4⟩]⟩ ∧
    (IndexRoot.decode (.ofList StoredRoot.directory.encode)).notes = [] ∧
    (IndexRoot.decode (.ofList StoredRoot.directory.encode)).value.map (fun root =>
      root.entries.map fun e => e.fileName.map FileName.name) = some [some "a", none] := by
  obtain ⟨hroot, hbare⟩ := entries_read_back
  have hnode : IndexAllocation.isBlock (.ofList gapped.encode) = false := by decide +kernel
  refine ⟨hnode, ?_, ?_⟩
  · rw [hbare gapped none false hnode]
    rfl
  · rw [hroot]
    exact ⟨rfl, rfl⟩

end Ntfs
