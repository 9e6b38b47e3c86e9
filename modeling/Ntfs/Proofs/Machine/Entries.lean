import Ntfs.Attribute.Index
import Ntfs.Proofs.Bytes.Window
import Ntfs.Proofs.Machine.Fixup
import Ntfs.Proofs.Machine.Values

/-!
# Entries on the machine

Attribute lists and index nodes are walks over entries that declare their own lengths.  An entry is
read from the bytes between its place and the end of the walk, and the walk goes on by the declared
length, at least a header further.  The next place may lie past the end, but by a 16-bit length at
most, so it is still a word; then the walk is over.
-/

namespace Ntfs.Machine

open Work

/-! ## Attribute lists -/

/-- The entry at `offset`, where `entry` is what stands from there on. -/
def listEntry (entry : Bytes) (offset : Nat) (code : UInt32) (length : UInt16) : Work ListEntry := do
  let nameLength ← index entry 6
  let nameOffset ← index entry 7
  let startVcn ← u64 entry 8
  let holder ← reference (← u64 entry 16)
  let attributeId ← u16 entry 24
  let name ← storedName entry nameOffset.toNat nameLength.toNat (.listEntryName offset)
  return { kind := AttributeKind.ofCode code, length, nameLength, nameOffset, startVcn, holder
           attributeId, name }

def listEntriesFrom (raw : Bytes) (offset : Nat) : Work (List ListEntry) :=
  if offset < raw.length then do
    let entry ← slice raw offset raw.length
    if entry.length < ListEntry.minSize then do
      tell (.listEntryCut offset entry.length)
      return []
    else
      match ← u32? entry 0 with
      | none => pure []
      | some code => do
        let length ← u16 entry 4
        if code = 0 ∧ length = 0 then pure []
        else if length.toNat < ListEntry.minSize then do
          tell (.listEntryLength offset length.toNat)
          return []
        else do
          let front ← listEntry entry offset code length
          let ⟨next, _⟩ ← addOn offset length.toNat
          return front :: (← listEntriesFrom raw next)
  else pure []
termination_by raw.length - offset
decreasing_by
  have hlength : ¬ length.toNat < 24 := by assumption
  omega

def listEntries (raw : Bytes) : Work (List ListEntry) := listEntriesFrom raw 0

variable {raw entry : Bytes} {offset : Nat} {list : Buffer}

theorem listEntryName_eq (hrest : list.toList.drop offset = entry) :
    storedName entry (Bytes.u8 (entry.take 26) 7).toNat (Bytes.u8 (entry.take 26) 6).toNat
        (.listEntryName offset) =
      done (ListEntry.decodeName list offset (entry.take 26)) := by
  rw [ListEntry.decodeName, Buffer.window_of_drop hrest,
    storedName_eq (Nat.lt_trans (UInt8.toNat_lt _) (by decide)) (UInt8.toNat_lt _)]
  generalize (Bytes.u8 (entry.take 26) 7).toNat = place
  generalize (Bytes.u8 (entry.take 26) 6).toNat = units
  have hlength : ((entry.drop place).take (2 * units)).length =
      min (2 * units) (entry.length - place) := by
    rw [List.length_take, List.length_drop]
  by_cases hnone : units = 0
  · rw [if_pos hnone, hnone]
    rfl
  · have hpos : ¬ 2 * units = 0 := by omega
    rw [if_neg hnone, if_neg hpos]
    by_cases hinside : place + 2 * units ≤ entry.length
    · rw [Bytes.slice?_eq_some_iff.mpr ⟨hinside, rfl⟩, if_pos (by omega), Bytes.part]
    · have hshort : Bytes.slice? entry place (2 * units) = none :=
        if_pos (Bytes.shorterThan_iff.mpr (by omega))
      rw [hshort, if_neg (by omega)]

/-- An entry of a list on the machine is the one that the library reads. -/
theorem listEntry_eq (hrest : list.toList.drop offset = entry) (hsize : entry.length ≤ maxSize)
    (hlong : ListEntry.minSize ≤ entry.length) :
    listEntry entry offset (Bytes.u32 entry 0) (Bytes.u16 entry 4) =
      done (ListEntry.decodeAt list offset (entry.take 26)) := by
  have hmin : 24 ≤ entry.length := hlong
  have hname := listEntryName_eq hrest
  have hnameLength : Bytes.u8 (entry.take 26) 6 = Bytes.u8 entry 6 := Bytes.u8_take entry (by decide)
  have hnameOffset : Bytes.u8 (entry.take 26) 7 = Bytes.u8 entry 7 := Bytes.u8_take entry (by decide)
  rw [hnameLength, hnameOffset] at hname
  simp (disch := omega) only [listEntry, index_of_lt, u16_eq hsize, u64_eq hsize, reference_eq,
    hname, bind_eq_andThen, done_clean_andThen]
  rw [ListEntry.decodeAt, hnameLength, hnameOffset, Bytes.u32_take entry (by decide),
    Bytes.u16_take entry (show 4 + 2 ≤ 26 by decide), Bytes.u64_take entry (by decide),
    Bytes.u64_take entry (by decide), Bytes.u16_take entry (show 24 + 2 ≤ 26 by decide)]
  exact done_andThen_pure _ _

/-- Walking over a list on the machine never fails, and gives what the library reads. -/
theorem listEntriesFrom_eq (hraw : raw.length ≤ maxSize) (offset : Nat) :
    listEntriesFrom raw offset = done (ListEntry.decodeFrom (.ofList raw) offset) := by
  have hmax : maxSize + 0x100000 ≤ maxWord := by decide
  rw [listEntriesFrom, ListEntry.decodeFrom, Buffer.size_ofList]
  by_cases hend : raw.length ≤ offset
  · rw [if_neg (Nat.not_lt.mpr hend), if_pos hend]
    rfl
  · have hlength : (raw.drop offset).length = raw.length - offset := List.length_drop
    have hrest : (Buffer.ofList raw).toList.drop offset = raw.drop offset := by
      rw [Buffer.toList_ofList]
    rw [if_pos (Nat.not_le.mp hend), if_neg hend, Buffer.window_zero_of_drop hrest,
      slice_to_end (by omega), bind_eq_andThen, done_clean_andThen]
    generalize raw.drop offset = entry at *
    have hentry : entry.length ≤ maxSize := by omega
    have hfixed : (entry.take ListEntry.fixedSize).length = min 26 entry.length := List.length_take
    have hmin : ListEntry.minSize = 24 := rfl
    by_cases hcut : entry.length < ListEntry.minSize
    · rw [if_pos hcut, if_pos (by omega), hfixed, Nat.min_eq_right (by omega)]
      rfl
    · rw [if_neg hcut, if_neg (by omega), u32?_eq hentry, Bytes.u32?_eq_some (by omega),
        bind_eq_andThen, done_clean_andThen]
      simp only [u16_eq hentry, bind_eq_andThen, done_clean_andThen]
      have hfront := listEntry_eq hrest hentry (Nat.le_of_not_lt hcut)
      simp only [ListEntry.fixedSize, Bytes.u32_take entry (show 0 + 4 ≤ 26 by decide),
        Bytes.u16_take entry (show 4 + 2 ≤ 26 by decide)]
      generalize Bytes.u16 entry 4 = length at *
      have hlength_lt := length.toNat_lt
      have hzero : length = 0 ↔ length.toNat = 0 := by
        rw [← UInt16.toNat_inj, UInt16.toNat_zero]
      simp only [hzero]
      by_cases hpadding : Bytes.u32 entry 0 = 0 ∧ length.toNat = 0
      · rw [if_pos hpadding, if_pos hpadding]
        rfl
      · rw [if_neg hpadding, if_neg hpadding]
        by_cases hshort : length.toNat < ListEntry.minSize
        · rw [if_pos hshort, if_pos hshort]
          rfl
        · have hfurther : raw.length - (offset + length.toNat) < raw.length - offset := by omega
          have hnext := listEntriesFrom_eq hraw (offset + length.toNat)
          rw [if_neg hshort, if_neg hshort, hfront]
          refine done_andThen_cons ?_
          rw [addOn_of_le (by omega), done_clean_andThen, hnext]
          exact done_andThen_pure _ _
termination_by raw.length - offset

/-! ## Index nodes -/

/-- The header of the node at a place, if all of it exists. -/
def node? (raw : Bytes) (position : Nat) : Work (Option IndexNode) :=
  match part? raw position raw.length with
  | none => pure none
  | some header => do
    match ← u32? header 0, ← u32? header 4, ← u32? header 8, header[12]? with
    | some entriesOffset, some usedLength, some allocatedSize, some flags =>
      pure (some { entriesOffset, usedLength, allocatedSize, flags })
    | _, _, _, _ => pure none

/-- The key of an entry, where `entry` is what stands from it to the end of the node. -/
def indexKey (fileNameKeys : Bool) (entry : Bytes) (keyLength : UInt16) (flags : UInt32) :
    Work (Option FileName) :=
  if fileNameKeys && keyLength != 0 && !IndexEntry.marksLast flags then do
    let last ← add IndexEntry.headerSize keyLength.toNat
    fileName (← slice entry IndexEntry.headerSize (min last entry.length))
  else pure none

/-- The block number at the end of an entry, where `entry` is what stands from it on. -/
def indexChild? (entry : Bytes) (length : UInt16) (flags : UInt32) : Work (Option UInt64) :=
  if IndexEntry.marksChild flags then
    match checkedSub? length.toNat 8 with
    | none => pure none
    | some place => u64? entry place
  else pure none

/-- An entry whose header was read, where `entry` is what stands from it to the end of the node. -/
def indexEntry (fileNameKeys : Bool) (entry : Bytes) (file : FileReference) (length keyLength : UInt16)
    (flags : UInt32) : Work IndexEntry := do
  let fileName ← indexKey fileNameKeys entry keyLength flags
  let childVcn ← indexChild? entry length flags
  return { file, length, keyLength, flags, fileName, childVcn }

/-- The entries from `offset` on in a node that is used up to `last`. -/
def indexEntriesFrom (fileNameKeys : Bool) (raw : Bytes) (last offset : Nat) :
    Work (List IndexEntry) := do
  let ⟨headerEnd, _⟩ ← addOn offset IndexEntry.headerSize
  if headerEnd ≤ last then do
    let entry ← slice raw offset last
    let file ← reference (← u64 entry 0)
    let length ← u16 entry 8
    let keyLength ← u16 entry 10
    let flags ← u32 entry 12
    if length.toNat < IndexEntry.headerSize then do
      tell (.indexEntryLength offset length.toNat)
      return []
    else do
      let front ← indexEntry fileNameKeys entry file length keyLength flags
      if front.isLast then return [front]
      else do
        let ⟨next, _⟩ ← addOn offset length.toNat
        return front :: (← indexEntriesFrom fileNameKeys raw last next)
  else pure []
termination_by last - offset
decreasing_by
  have hlength : ¬ length.toNat < 16 := by assumption
  have hroom : headerEnd = offset + 16 := by assumption
  omega

def nodeEntries (fileNameKeys : Bool) (raw : Bytes) (position : Nat) : Work (List IndexEntry) := do
  match ← node? raw position with
  | none => do
    tell .indexNodeCut
    return []
  | some node => do
    let start ← add position node.entriesOffset.toNat
    let last ← add position node.usedLength.toNat
    if raw.length < last then do
      tell (.indexNodeOverrun node.usedLength.toNat (raw.length - position))
      indexEntriesFrom fileNameKeys raw raw.length start
    else indexEntriesFrom fileNameKeys raw last start

variable (fileNameKeys : Bool)

theorem node?_eq (hraw : raw.length ≤ maxSize) (position : Nat) :
    node? raw position = done (.clean (IndexNode.decode? (.ofList raw) position)) := by
  have hrest : (Buffer.ofList raw).toList.drop position = raw.drop position := by
    rw [Buffer.toList_ofList]
  have hlength : (raw.drop position).length = raw.length - position := List.length_drop
  rw [node?, IndexNode.decode?, Buffer.window_zero_of_drop hrest]
  by_cases hinside : position ≤ raw.length
  · rw [part?_to_end hinside]
    generalize raw.drop position = header at *
    have hheader : header.length ≤ maxSize := by omega
    have hstored : (header.take IndexNode.headerSize).length = min 13 header.length :=
      List.length_take
    simp only [u32?_eq hheader, bind_eq_andThen, done_clean_andThen]
    by_cases hcut : header.length < 13
    · have hflags : header[12]? = none := List.getElem?_eq_none (by omega)
      have hshort : (header.take IndexNode.headerSize).length < IndexNode.headerSize := by
        rw [hstored, IndexNode.headerSize]
        omega
      rw [hflags, if_pos hshort]
      cases Bytes.u32? header 0 <;> cases Bytes.u32? header 4 <;> cases Bytes.u32? header 8 <;> rfl
    · have hlong : ¬ (header.take IndexNode.headerSize).length < IndexNode.headerSize := by
        rw [hstored, IndexNode.headerSize]
        omega
      have hflags : header[12]? = some (Bytes.u8 (header.take IndexNode.headerSize) 12) := by
        rw [IndexNode.headerSize, Bytes.u8_take header (by decide), Bytes.u8,
          List.getD_eq_getElem?_getD, List.getElem?_eq_getElem (by omega), Option.getD_some]
      rw [if_neg hlong, hflags]
      simp (disch := omega) only [Bytes.u32?_eq_some, IndexNode.headerSize, Bytes.u32_take]
      rfl
  · have hnone : raw.drop position = [] := List.drop_eq_nil_of_le (by omega)
    rw [part?_past_end (Nat.lt_of_not_le hinside), hnone]
    rfl

theorem indexKey_eq {area : Buffer} (hrest : area.toList.drop offset = entry)
    (hsize : entry.length ≤ maxSize) (hlong : IndexEntry.headerSize ≤ entry.length) :
    indexKey fileNameKeys entry (Bytes.u16 entry 10) (Bytes.u32 entry 12) =
      done (IndexEntry.decodeKey fileNameKeys area offset (entry.take 16)) := by
  have hword : 100000 ≤ maxWord := by decide
  rw [indexKey, IndexEntry.decodeKey, Bytes.u16_take entry (by decide),
    Bytes.u32_take entry (by decide), Buffer.window_of_drop hrest]
  generalize Bytes.u16 entry 10 = keyLength
  have hkey := keyLength.toNat_lt
  have hzero : (keyLength != 0) = (keyLength.toNat != 0) := by
    rw [Bool.eq_iff_iff, bne_iff_ne, bne_iff_ne, Ne, ← UInt16.toNat_inj, UInt16.toNat_zero]
  rw [hzero]
  split
  · have hheader : IndexEntry.headerSize = 16 := rfl
    have hlength : ((entry.drop IndexEntry.headerSize).take keyLength.toNat).length ≤ maxSize := by
      rw [List.length_take, List.length_drop]
      omega
    rw [add_of_le (by omega), bind_eq_andThen, done_clean_andThen, slice_min hlong,
      bind_eq_andThen, done_clean_andThen, fileName_eq hlength,
      ← FileName.decode_take _ (Nat.le_refl _), List.take_take, Nat.min_comm]
  · rfl

theorem indexChild?_eq {area : Buffer} (hrest : area.toList.drop offset = entry)
    (hsize : entry.length ≤ maxSize) {length : UInt16} (hlength : IndexEntry.headerSize ≤ length.toNat)
    (flags : UInt32) :
    indexChild? entry length flags = done (.clean (if IndexEntry.marksChild flags
      then IndexEntry.decodeChild? area offset length.toNat else none)) := by
  have hheader : 16 ≤ length.toNat := hlength
  have hplace : checkedSub? length.toNat 8 = some (length.toNat - 8) := if_pos (by omega)
  have hchild : IndexEntry.decodeChild? area offset length.toNat =
      Bytes.u64? entry (length.toNat - 8) := by
    rw [IndexEntry.decodeChild?, Buffer.window_of_drop hrest, Bytes.u64?,
      Bytes.word?_take _ (by decide),
      Bytes.word?_drop, Nat.add_zero, Bytes.u64?]
  rw [indexChild?, hchild]
  split
  · simp only [hplace, u64?_eq hsize]
  · rfl

/-- An entry of a node on the machine is the one that the library reads. -/
theorem indexEntry_eq {area : Buffer} (hrest : area.toList.drop offset = entry)
    (hsize : entry.length ≤ maxSize) (hlong : IndexEntry.headerSize ≤ entry.length)
    (hlength : IndexEntry.headerSize ≤ (Bytes.u16 entry 8).toNat) :
    indexEntry fileNameKeys entry (FileReference.ofWord (Bytes.u64 entry 0)) (Bytes.u16 entry 8)
        (Bytes.u16 entry 10) (Bytes.u32 entry 12) =
      done (IndexEntry.decodeAt fileNameKeys area offset (entry.take 16)) := by
  rw [indexEntry, indexKey_eq fileNameKeys hrest hsize hlong, IndexEntry.decodeAt,
    Bytes.u16_take entry (by decide), Bytes.u16_take entry (show 10 + 2 ≤ 16 by decide),
    Bytes.u32_take entry (by decide),
    Bytes.u64_take entry (by decide)]
  simp only [indexChild?_eq hrest hsize hlength, bind_eq_andThen, done_clean_andThen]
  exact done_andThen_pure _ _

/-- The used area of a node ends where the node says, if it lies inside. -/
theorem size_area {last : Nat} (h : last ≤ raw.length) :
    ((Buffer.ofList raw).slice 0 last).size = last := by
  rw [← Buffer.length_toList, Buffer.toList_slice, Buffer.toList_ofList, List.drop_zero,
    List.length_take, Nat.min_eq_left h]

/-- Walking over a node on the machine never fails, and gives what the library reads. -/
theorem indexEntriesFrom_eq (hraw : raw.length ≤ maxSize) {last : Nat} (hlast : last ≤ raw.length)
    (offset : Nat) (hoffset : offset + IndexEntry.headerSize ≤ maxWord) :
    indexEntriesFrom fileNameKeys raw last offset =
      done (IndexEntry.decodeFrom fileNameKeys ((Buffer.ofList raw).slice 0 last) offset) := by
  have hheader : IndexEntry.headerSize = 16 := rfl
  rw [indexEntriesFrom, IndexEntry.decodeFrom, size_area hlast, addOn_of_le hoffset, bind_eq_andThen,
    done_clean_andThen]
  dsimp only
  by_cases hend : last < offset + IndexEntry.headerSize
  · rw [if_neg (Nat.not_le.mpr hend), if_pos hend]
    rfl
  · have hrest : ((Buffer.ofList raw).slice 0 last).toList.drop offset =
        (raw.drop offset).take (last - offset) := by
      rw [Buffer.toList_slice, Buffer.toList_ofList, List.drop_zero, List.drop_take]
    have hlength : ((raw.drop offset).take (last - offset)).length = last - offset := by
      rw [List.length_take, List.length_drop]
      omega
    rw [if_pos (Nat.le_of_not_lt hend), if_neg hend, slice_of_le (by omega) hlast, bind_eq_andThen,
      done_clean_andThen, Buffer.window_zero_of_drop hrest]
    generalize (raw.drop offset).take (last - offset) = entry at *
    have hentry : entry.length ≤ maxSize := by omega
    have hfront := indexEntry_eq fileNameKeys hrest hentry (by omega)
    simp only [u16_eq hentry, u32_eq hentry, u64_eq hentry, reference_eq, bind_eq_andThen,
      done_clean_andThen, hheader, Bytes.u16_take entry (show 8 + 2 ≤ 16 by decide),
      Bytes.u32_take entry (show 12 + 4 ≤ 16 by decide)]
    by_cases hshort : (Bytes.u16 entry 8).toNat < 16
    · rw [if_pos hshort, if_pos hshort]
      rfl
    · rw [if_neg hshort, if_neg hshort, hfront (Nat.le_of_not_lt hshort)]
      generalize hdecoded : IndexEntry.decodeAt fileNameKeys ((Buffer.ofList raw).slice 0 last) offset
        (entry.take 16) = front
      have hmark : front.value.isLast = IndexEntry.marksLast (Bytes.u32 entry 12) := by
        rw [← hdecoded, ← Bytes.u32_take entry (show 12 + 4 ≤ 16 by decide)]
        rfl
      by_cases hfinal : IndexEntry.marksLast (Bytes.u32 entry 12) = true
      · rw [if_pos hfinal]
        exact done_andThen_of_clean (by rw [if_pos (hmark.trans hfinal)]; rfl)
      · have hmax : maxSize + 0x100000 ≤ maxWord := by decide
        have hdeclared := (Bytes.u16 entry 8).toNat_lt
        have hfurther : last - (offset + (Bytes.u16 entry 8).toNat) < last - offset := by omega
        have hnext := indexEntriesFrom_eq hraw hlast (offset + (Bytes.u16 entry 8).toNat) (by omega)
        rw [if_neg hfinal]
        refine done_andThen_cons ?_
        rw [if_neg (hmark ▸ hfinal), addOn_of_le (by omega), done_clean_andThen, hnext]
        exact done_andThen_pure _ _
termination_by last - offset

/-- Reading a node on the machine never fails, and gives what the library reads. -/
theorem nodeEntries_eq (hraw : raw.length ≤ maxSize) {position : Nat} (hposition : position ≤ 24) :
    nodeEntries fileNameKeys raw position =
      done (IndexEntry.decodeNode fileNameKeys (.ofList raw) position) := by
  rw [nodeEntries, node?_eq hraw, bind_eq_andThen, done_clean_andThen, IndexEntry.decodeNode]
  cases IndexNode.decode? (.ofList raw) position with
  | none => rfl
  | some node =>
      have hmax : maxSize + 0x200000000 ≤ maxWord := by decide
      have hstart := node.entriesOffset.toNat_lt
      have hused := node.usedLength.toNat_lt
      have hfirst : position + node.entriesOffset.toNat + 16 ≤ maxWord := by omega
      simp only [add_of_le (show position + node.entriesOffset.toNat ≤ maxWord by omega),
        add_of_le (show position + node.usedLength.toNat ≤ maxWord by omega), bind_eq_andThen,
        done_clean_andThen, Buffer.size_ofList]
      by_cases hover : raw.length < position + node.usedLength.toNat
      · have harea : (Buffer.ofList raw).slice 0 (position + node.usedLength.toNat) =
            (Buffer.ofList raw).slice 0 raw.length := by
          refine Buffer.ext ?_
          rw [Buffer.toList_slice, Buffer.toList_slice, Buffer.toList_ofList,
            List.take_of_length_le (Nat.le_of_lt hover), List.take_length]
        rw [if_pos hover, if_pos hover, harea,
          indexEntriesFrom_eq fileNameKeys hraw (Nat.le_refl _) _ hfirst, tell_andThen_done]
        rfl
      · rw [if_neg hover, if_neg hover,
          indexEntriesFrom_eq fileNameKeys hraw (Nat.le_of_not_lt hover) _ hfirst]
        rfl

/-! ## Index roots -/

def indexRoot (raw : Bytes) : Work (Option IndexRoot) := do
  match ← node? raw IndexRoot.nodePosition with
  | none => do
    tell (.indexRootShort raw.length)
    return none
  | some node => do
    let indexedCode ← promised (← u32? raw 0)
    let collation ← promised (← u32? raw 4)
    let blockSize ← promised (← u32? raw 8)
    let clustersPerBlock ← index raw 12
    let entries ← nodeEntries (IndexRoot.keysAreFileNames indexedCode) raw IndexRoot.nodePosition
    return some { indexedCode, collation, blockSize, clustersPerBlock, node, entries }

/-- A node is not there unless its header is. -/
theorem length_of_decode?_eq_some {position : Nat} {node : IndexNode}
    (h : IndexNode.decode? (.ofList raw) position = some node) :
    position + IndexNode.headerSize ≤ raw.length := by
  rw [IndexNode.decode?, Buffer.window_eq, Buffer.toList_ofList] at h
  split at h
  · cases h
  · rename_i hlong
    rw [List.length_take, List.length_drop] at hlong
    have hpos : 0 < IndexNode.headerSize := by decide
    omega

/-- Decoding an index root on the machine never fails, and gives what the library reads. -/
theorem indexRoot_eq (hraw : raw.length ≤ maxSize) :
    indexRoot raw = done (IndexRoot.decode (.ofList raw)) := by
  unfold IndexRoot.decode
  rw [indexRoot, node?_eq hraw, bind_eq_andThen, done_clean_andThen, Buffer.size_ofList]
  cases hnode : IndexNode.decode? (.ofList raw) IndexRoot.nodePosition with
  | none => rfl
  | some node =>
      have hlong : 0x10 + 13 ≤ raw.length := length_of_decode?_eq_some hnode
      have hfront : (Buffer.ofList raw).window 0 IndexRoot.nodePosition = raw.take 16 := by
        rw [Buffer.window_eq, Buffer.toList_ofList]
        rfl
      have hentries (keys : Bool) :=
        nodeEntries_eq keys hraw (show IndexRoot.nodePosition ≤ 24 by decide)
      simp (disch := omega) only [u32?_eq hraw, promised_u32, index_of_lt, hentries, bind_eq_andThen,
        done_clean_andThen, hfront, Bytes.u32_take, Bytes.u8_take]
      exact done_andThen_pure _ _

end Ntfs.Machine
