import Ntfs.Proofs.Machine.Entries

/-!
# Index blocks on the machine

The content of an allocation is cut into blocks of one size, which is never zero.  Each block has its
protection undone and is read as a node; a block that is unused or torn is passed over.  Blocks are
counted by machine words, and there are no more of them than bytes.
-/

namespace Ntfs.Machine

open Work

/-! ## Pieces -/

/-- Pieces of a positive length; the last piece holds what is left. -/
def piecesOf {length : Nat} (hlength : 0 < length) (raw : Bytes) : List Bytes :=
  if raw = [] then [] else raw.take length :: piecesOf hlength (raw.drop length)
termination_by raw.length
decreasing_by
  have : 0 < raw.length := List.length_pos_iff.mpr ‹_›
  rw [List.length_drop]
  omega

def pieces (raw : Bytes) (length : Nat) : Work (List Bytes) :=
  if hlength : 0 < length then pure (piecesOf hlength raw) else stop .emptyPieces

variable {raw block : Bytes} {length : Nat}

/-- The pieces start at the multiples of their length. -/
theorem piecesOf_eq (hlength : 0 < length) (raw : Bytes) :
    piecesOf hlength raw = (List.range ((raw.length + length - 1) / length)).map fun place =>
      (raw.drop (place * length)).take length := by
  rw [piecesOf]
  by_cases hempty : raw = []
  · have hnone : (raw.length + length - 1) / length = 0 := by
      rw [hempty, List.length_nil]
      exact Nat.div_eq_of_lt (by omega)
    rw [if_pos hempty, hnone]
    rfl
  · have hpos : 0 < raw.length := List.length_pos_iff.mpr hempty
    have hshorter : (raw.drop length).length < raw.length := by
      rw [List.length_drop]
      omega
    have hcount : (raw.length + length - 1) / length =
        ((raw.drop length).length + length - 1) / length + 1 := by
      rw [List.length_drop, ← Nat.add_div_right _ hlength]
      by_cases hfits : raw.length ≤ length
      · -- one piece holds all of it
        have hone (n : Nat) (hle : length ≤ n) (hlt : n < 2 * length) : n / length = 1 :=
          Nat.div_eq_of_lt_le (by omega) (by omega)
        rw [hone _ (by omega) (by omega), hone _ (by omega) (by omega)]
      · congr 1
        omega
    rw [if_neg hempty, piecesOf_eq hlength (raw.drop length), hcount, List.range_succ_eq_map]
    simp only [List.map_cons, List.map_map, Nat.zero_mul, List.drop_zero, List.drop_drop]
    congr 2
    funext place
    rw [Function.comp_apply, Nat.succ_mul, Nat.add_comm]
termination_by raw.length

/-- The pieces are those of the library. -/
theorem map_ofList_piecesOf (hlength : 0 < length) (raw : Bytes) :
    (piecesOf hlength raw).map Buffer.ofList = (Buffer.ofList raw).pieces length := by
  rw [piecesOf_eq, Buffer.pieces, Buffer.size_ofList, List.map_map]
  congr 1
  funext place
  refine Buffer.ext ?_
  rw [Function.comp_apply, Buffer.toList_ofList, Buffer.toList_slice, Buffer.toList_ofList,
    List.drop_take, Nat.succ_mul, Nat.add_sub_cancel_left]

theorem length_piecesOf_le (hlength : 0 < length) (raw : Bytes) :
    (piecesOf hlength raw).length ≤ raw.length := by
  have hmul : raw.length ≤ raw.length * length := Nat.le_mul_of_pos_right _ hlength
  rw [piecesOf_eq, List.length_map, List.length_range, ← Nat.lt_succ_iff, Nat.div_lt_iff_lt_mul hlength,
    Nat.succ_mul]
  omega

theorem length_le_of_mem_piecesOf (hlength : 0 < length) (h : block ∈ piecesOf hlength raw) :
    block.length ≤ raw.length := by
  rw [piecesOf_eq] at h
  obtain ⟨place, -, rfl⟩ := List.mem_map.mp h
  rw [List.length_take, List.length_drop]
  omega

/-! ## Blocks -/

def isBlock (raw : Bytes) : Bool := raw.take 4 == [0x49, 0x4E, 0x44, 0x58]

/-- The size of the blocks: the announced one, else the one that the first node allocates. -/
def blockSizeOf (raw : Bytes) (announced : Option UInt32) : Work Nat :=
  match (announced.map UInt32.toNat).filter IndexAllocation.isBlockSize with
  | some size => pure size
  | none => do
    match ← u32? raw (← add IndexAllocation.nodePosition 8) with
    | none => pure IndexAllocation.defaultBlockSize
    | some allocated => do
      let size ← add allocated.toNat IndexAllocation.nodePosition
      if IndexAllocation.isBlockSize size then pure size else pure IndexAllocation.defaultBlockSize

/-- What one block holds: nothing if it is unused or torn. -/
def indexBlock (fileNameKeys : Bool) (number : Nat) (block : Bytes) :
    Work (Option (List IndexEntry)) :=
  if !isBlock block then pure none
  else do
    let array ← u16 block 4
    let count ← u16 block 6
    match ← restore block array.toNat count.toNat with
    | .error fault => do
      tell (.indexBlock number fault)
      return none
    | .ok restored =>
      return some (← nodeEntries fileNameKeys restored IndexAllocation.nodePosition)

/-- How many blocks were read, `counted` among them, and what the others hold; the first of these has
number `number`. -/
def indexBlocks (fileNameKeys : Bool) (number counted : Nat) :
    List Bytes → Work (Nat × List IndexEntry)
  | [] => pure (counted, [])
  | block :: rest => do
    let found ← indexBlock fileNameKeys number block
    let next ← add number 1
    match found with
    | none => indexBlocks fileNameKeys next counted rest
    | some entries => do
      let (count, others) ← indexBlocks fileNameKeys next (← add counted 1) rest
      return (count, entries ++ others)

def indexAllocation (raw : Bytes) (announced : Option UInt32) (fileNameKeys : Bool) :
    Work IndexAllocation :=
  if isBlock raw then do
    let size ← blockSizeOf raw announced
    let (count, entries) ← indexBlocks fileNameKeys 0 0 (← pieces raw size)
    return { loaded := true, blocks := UInt64.ofNat count, entries }
  else do
    let entries ← nodeEntries fileNameKeys raw 0
    return { loaded := true, blocks := 1, entries }

theorem isBlock_eq (raw : Bytes) : isBlock raw = IndexAllocation.isBlock (.ofList raw) := by
  rw [isBlock, IndexAllocation.isBlock, Buffer.window_eq, Buffer.toList_ofList, List.drop_zero]

theorem blockSizeOf_eq (hraw : raw.length ≤ maxSize) (announced : Option UInt32) :
    blockSizeOf raw announced =
      done (.clean (IndexAllocation.blockSizeOf (.ofList raw) announced)) := by
  have hsum : add IndexAllocation.nodePosition 8 =
      done (.clean (IndexAllocation.nodePosition + 8)) := rfl
  have hallocated : Bytes.u32? ((Buffer.ofList raw).window (IndexAllocation.nodePosition + 8) 4) 0 =
      Bytes.u32? raw (IndexAllocation.nodePosition + 8) := by
    rw [Buffer.window_eq, Buffer.toList_ofList, Bytes.u32?, Bytes.word?_take _ (by decide),
      Bytes.word?_drop, Nat.add_zero, Bytes.u32?]
  simp only [blockSizeOf, IndexAllocation.blockSizeOf, hsum, hallocated, u32?_eq hraw,
    bind_eq_andThen, done_clean_andThen]
  cases (announced.map UInt32.toNat).filter IndexAllocation.isBlockSize with
  | some size => rfl
  | none =>
      cases Bytes.u32? raw (IndexAllocation.nodePosition + 8) with
      | none => rfl
      | some allocated =>
          have hlt := allocated.toNat_lt
          have hadd : add allocated.toNat IndexAllocation.nodePosition =
              done (.clean (allocated.toNat + IndexAllocation.nodePosition)) := by
            refine add_of_le ?_
            have : 2 ^ 32 + IndexAllocation.nodePosition ≤ maxWord := by decide
            omega
          simp only [hadd, done_clean_andThen, Option.map_some, Option.filter_some]
          split <;> rfl

theorem blockSizeOf_pos (b : Buffer) (announced : Option UInt32) :
    0 < IndexAllocation.blockSizeOf b announced := by
  have hpos {size : Nat} (h : IndexAllocation.isBlockSize size = true) : 0 < size := by
    rw [IndexAllocation.isBlockSize, Bool.and_eq_true, decide_eq_true_eq] at h
    omega
  rw [IndexAllocation.blockSizeOf]
  cases hknown : (announced.map UInt32.toNat).filter IndexAllocation.isBlockSize with
  | some size => exact hpos (Option.filter_eq_some_iff.mp hknown).2
  | none =>
      dsimp only
      cases hallocated : ((Bytes.u32? (b.window (IndexAllocation.nodePosition + 8) 4) 0).map
          fun size => size.toNat + IndexAllocation.nodePosition).filter IndexAllocation.isBlockSize with
      | some size => exact hpos (Option.filter_eq_some_iff.mp hallocated).2
      | none => decide

variable (fileNameKeys : Bool)

/-- One block on the machine gives what the library reads. -/
theorem indexBlock_eq (number : Nat) (hblock : block.length ≤ maxSize) :
    indexBlock fileNameKeys number block =
      done (IndexAllocation.decodeBlock fileNameKeys number (.ofList block)) := by
  rw [indexBlock, IndexAllocation.decodeBlock, isBlock_eq]
  split
  · rfl
  · have hfront : (Buffer.ofList block).window 0 8 = block.take 8 := by
      rw [Buffer.window_eq, Buffer.toList_ofList, List.drop_zero]
    simp only [u16_eq hblock, bind_eq_andThen, done_clean_andThen, hfront,
      Bytes.u16_take block (show 4 + 2 ≤ 8 by decide),
      Bytes.u16_take block (show 6 + 2 ≤ 8 by decide)]
    generalize Bytes.u16 block 4 = array
    generalize Bytes.u16 block 6 = count
    have harray : array.toNat + 2 * count.toNat ≤ maxWord := by
      have hword : 1000000 ≤ maxWord := by decide
      have := array.toNat_lt
      have := count.toNat_lt
      omega
    have hrestore := restore_eq
      (show (Buffer.ofList block).size ≤ maxSize by rwa [Buffer.size_ofList]) harray
    rw [Buffer.toList_ofList] at hrestore
    rw [hrestore, done_clean_andThen]
    cases hrestored : Fixup.restore (Buffer.ofList block) array.toNat count.toNat with
    | error fault => rfl
    | ok restored =>
        have hsize : restored.toList.length ≤ maxSize := by
          rw [Buffer.length_toList, Fixup.size_of_restore hrestored, Buffer.size_ofList]
          exact hblock
        have hentries := nodeEntries_eq fileNameKeys hsize
          (show IndexAllocation.nodePosition ≤ 24 by decide)
        rw [Buffer.ofList_toList] at hentries
        simp only [Except.map, hentries]
        exact done_andThen_pure _ _

/-- Reading blocks on the machine never fails: neither the number of a block nor their count leaves a
word. -/
theorem indexBlocks_eq {blocks : List Bytes} {number counted : Nat}
    (hblocks : ∀ block ∈ blocks, block.length ≤ maxSize) (hnumber : number + blocks.length ≤ maxWord)
    (hcounted : counted + blocks.length ≤ maxWord) :
    indexBlocks fileNameKeys number counted blocks =
      done ((IndexAllocation.decodeBlocks fileNameKeys number (blocks.map .ofList)).map fun found =>
        (counted + (found.filterMap id).length, (found.filterMap id).flatten)) := by
  induction blocks generalizing number counted with
  | nil => rfl
  | cons block rest ih =>
      obtain ⟨hblock, hrest⟩ := List.forall_mem_cons.mp hblocks
      rw [List.length_cons] at hnumber hcounted
      rw [indexBlocks, indexBlock_eq fileNameKeys number hblock, List.map_cons,
        IndexAllocation.decodeBlocks, add_of_le (by omega)]
      generalize IndexAllocation.decodeBlock fileNameKeys number (.ofList block) = found
      obtain ⟨found, notes⟩ := found
      cases found with
      | none =>
          have hothers := ih hrest (show number + 1 + rest.length ≤ maxWord by omega)
            (show counted + rest.length ≤ maxWord by omega)
          simp only [bind_eq_andThen, andThen, hothers, Noted.clean, Noted.map, Noted.cons]
          rfl
      | some entries =>
          have hothers := ih hrest (show number + 1 + rest.length ≤ maxWord by omega)
            (show counted + 1 + rest.length ≤ maxWord by omega)
          have hfound (others : List (Option (List IndexEntry))) :
              (some entries :: others).filterMap id = entries :: others.filterMap id := rfl
          rw [add_of_le (by omega)]
          simp only [bind_eq_andThen, andThen, hothers, Noted.clean, Noted.map, Noted.cons,
            pure_eq_done, hfound, List.length_cons, List.flatten_cons, List.nil_append, List.append_nil]
          rw [Nat.add_right_comm, Nat.add_assoc]

/-- Decoding an allocation on the machine never fails, and gives what the library decodes. -/
theorem indexAllocation_eq (hraw : raw.length ≤ maxSize) (announced : Option UInt32) :
    indexAllocation raw announced fileNameKeys =
      done (IndexAllocation.decode (.ofList raw) announced fileNameKeys) := by
  rw [indexAllocation, IndexAllocation.decode, isBlock_eq]
  split
  · have hpos := blockSizeOf_pos (.ofList raw) announced
    have hcount := length_piecesOf_le hpos raw
    have hmax : maxSize ≤ maxWord := by decide
    have hblocks := indexBlocks_eq fileNameKeys
      (fun block hblock => Nat.le_trans (length_le_of_mem_piecesOf hpos hblock) hraw)
      (show 0 + (piecesOf hpos raw).length ≤ maxWord by omega)
      (show 0 + (piecesOf hpos raw).length ≤ maxWord by omega)
    rw [map_ofList_piecesOf] at hblocks
    simp only [blockSizeOf_eq hraw, pieces, dif_pos hpos, hblocks, Nat.zero_add, pure_eq_done,
      bind_eq_andThen, done_clean_andThen]
    exact done_andThen_pure _ _
  · rw [nodeEntries_eq fileNameKeys hraw (by decide)]
    exact done_andThen_pure _ _

end Ntfs.Machine
