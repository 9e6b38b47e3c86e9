import Ntfs.Attribute.Index
import Ntfs.Proofs.Bytes.Window

/-!
# The blocks of an allocation

The content of an allocation is cut into blocks of one size, and each block has its protection undone
and is read by itself.  `blocks_read_apart` says what that comes to: a block that is in use and not torn
adds what it holds when nothing stands beside it, a torn one adds a note, and an unused one nothing.  So
the damage done to a block stays in it.
-/

namespace Ntfs.IndexAllocation

/-- How the size of the blocks is known: it is announced, or the node of the first block tells it. -/
def TellsSize (first : Buffer) (announced : Option UInt32) (size : Nat) : Prop :=
  announced.map UInt32.toNat = some size ∨
    announced = none ∧ ∃ node, IndexNode.decode? first nodePosition = some node ∧
      node.allocatedSize.toNat + nodePosition = size

/-- Blocks of a known size, the first of them in use. -/
structure InBlocks (announced : Option UInt32) (size : Nat) (first : Buffer) (rest : List Buffer) :
    Prop where
  size_ge : 512 ≤ size
  isPower : ∃ exponent, size = 1 <<< exponent
  size_eq : ∀ b ∈ first :: rest, b.size = size
  inUse : isBlock first = true
  tells : TellsSize first announced size

/-- The block without its protection. -/
def fixupOf (block : Buffer) : Except Fixup.Fault Buffer :=
  let front := block.window 0 8
  Fixup.restore block (Bytes.u16 front 4).toNat (Bytes.u16 front 6).toNat

def isIntact (block : Buffer) : Bool := isBlock block && (fixupOf block).isOk

section Contribution

variable (fileNameKeys : Bool)

def nodeOf (block : Buffer) : Noted (List IndexEntry) :=
  IndexEntry.decodeNode fileNameKeys (Fixup.settled block (fixupOf block)) nodePosition

def notesOf (index : Nat) (block : Buffer) : List Note :=
  if isBlock block then
    match fixupOf block with
    | .error fault => [.indexBlock index fault]
    | .ok _ => (nodeOf fileNameKeys block).notes
  else []

def entriesOf (blocks : List Buffer) : List IndexEntry :=
  (blocks.filter isIntact).flatMap fun b => (nodeOf fileNameKeys b).value

/-- The notes on blocks, the first of which has number `index`. -/
def notesFrom (index : Nat) (blocks : List Buffer) : List Note :=
  (blocks.zipIdx index).flatMap fun (b, i) => notesOf fileNameKeys i b

def contentOf (blocks : List Buffer) : Noted IndexAllocation :=
  ⟨⟨true, .ofNat (blocks.countP isIntact), entriesOf fileNameKeys blocks⟩,
    notesFrom fileNameKeys 0 blocks⟩

variable {fileNameKeys} {block : Buffer} {index : Nat}

theorem entriesOf_append (front back : List Buffer) :
    entriesOf fileNameKeys (front ++ back) =
      entriesOf fileNameKeys front ++ entriesOf fileNameKeys back := by
  rw [entriesOf, List.filter_append, List.flatMap_append, entriesOf, entriesOf]

theorem notesFrom_append (front back : List Buffer) :
    notesFrom fileNameKeys index (front ++ back) =
      notesFrom fileNameKeys index front ++ notesFrom fileNameKeys (index + front.length) back := by
  rw [notesFrom, List.zipIdx_append, List.flatMap_append, notesFrom, notesFrom]

theorem notesFrom_cons (rest : List Buffer) :
    notesFrom fileNameKeys index (block :: rest) =
      notesOf fileNameKeys index block ++ notesFrom fileNameKeys (index + 1) rest := rfl

theorem isIntact_of_torn {fault : Fixup.Fault} (h : fixupOf block = .error fault) :
    isIntact block = false := by
  rw [isIntact, h]
  exact Bool.and_false _

theorem notesOf_of_torn {fault : Fixup.Fault} (hused : isBlock block = true)
    (h : fixupOf block = .error fault) :
    notesOf fileNameKeys index block = [.indexBlock index fault] := by
  rw [notesOf, if_pos hused, h]

theorem notesOf_of_intact (h : isIntact block = true) :
    notesOf fileNameKeys index block = (nodeOf fileNameKeys block).notes := by
  obtain ⟨hused, hok⟩ := Bool.and_eq_true_iff.mp h
  rw [notesOf, if_pos hused]
  cases hfixup : fixupOf block with
  | error fault =>
      rw [hfixup] at hok
      cases hok
  | ok restored => rfl

end Contribution

/-! ## Each block by itself -/

section Walk

variable (fileNameKeys : Bool)

/-- A block gives the entries of its node if it is intact, and else nothing but its notes. -/
theorem decodeBlock_eq (index : Nat) (block : Buffer) :
    decodeBlock fileNameKeys index block =
      ⟨if isIntact block then some (nodeOf fileNameKeys block).value else none,
        notesOf fileNameKeys index block⟩ := by
  rw [decodeBlock]
  by_cases hused : isBlock block = true
  · rw [hused, if_neg (by decide)]
    cases hfixup : fixupOf block with
    | error fault =>
        have hrestore := hfixup
        rw [fixupOf] at hrestore
        rw [isIntact_of_torn hfixup, if_neg Bool.false_ne_true, notesOf_of_torn hused hfixup]
        simp only [hrestore]
        rfl
    | ok restored =>
        have hrestore := hfixup
        rw [fixupOf] at hrestore
        have hintact : isIntact block = true := by
          rw [isIntact, hused, hfixup]
          rfl
        rw [hintact, if_pos rfl, notesOf_of_intact hintact, nodeOf, hfixup]
        simp only [hrestore]
        rfl
  · rw [Bool.not_eq_true] at hused
    rw [isIntact, notesOf, hused]
    rfl

theorem filterMap_decodeBlocks (index : Nat) (blocks : List Buffer) :
    (decodeBlocks fileNameKeys index blocks).value.filterMap id =
      (blocks.filter isIntact).map fun b => (nodeOf fileNameKeys b).value := by
  induction blocks generalizing index with
  | nil => rfl
  | cons block rest ih =>
      rw [decodeBlocks, decodeBlock_eq]
      show List.filterMap id (_ :: (decodeBlocks fileNameKeys (index + 1) rest).value) = _
      cases hintact : isIntact block with
      | true =>
          rw [if_pos rfl, List.filterMap_cons, ih, List.filter_cons_of_pos hintact]
          rfl
      | false =>
          rw [if_neg Bool.false_ne_true, List.filterMap_cons_none rfl, ih,
            List.filter_cons_of_neg (by rw [hintact]; exact Bool.false_ne_true)]

theorem notes_decodeBlocks (index : Nat) (blocks : List Buffer) :
    (decodeBlocks fileNameKeys index blocks).notes = notesFrom fileNameKeys index blocks := by
  induction blocks generalizing index with
  | nil => rfl
  | cons block rest ih => rw [decodeBlocks, decodeBlock_eq, Noted.cons, ih, notesFrom_cons]

end Walk

/-! ## Cutting into blocks -/

theorem isBlockSize_of_isPower {size : Nat} (hge : 512 ≤ size)
    (hpower : ∃ exponent, size = 1 <<< exponent) : isBlockSize size = true := by
  obtain ⟨exponent, rfl⟩ := hpower
  rw [isBlockSize, Bool.and_eq_true]
  refine ⟨decide_eq_true hge, ?_⟩
  rw [Nat.one_shiftLeft exponent, Nat.log2_two_pow, Nat.one_shiftLeft, beq_self_eq_true]

/-- What the node of a block allocates is found without its other fields. -/
theorem u32?_allocated {block : Buffer} {node : IndexNode}
    (h : IndexNode.decode? block nodePosition = some node) :
    Bytes.u32? (block.window (nodePosition + 8) 4) 0 = some node.allocatedSize := by
  unfold IndexNode.decode? at h
  simp only at h
  split at h
  · cases h
  · rename_i hwhole
    rw [Buffer.window_eq, List.length_take, List.length_drop, IndexNode.headerSize] at hwhole
    have hinside : 0 + 4 ≤ (block.window (nodePosition + 8) 4).length := by
      rw [Buffer.window_eq, List.length_take, List.length_drop]
      omega
    have hfield : Bytes.u32 (block.window (nodePosition + 8) 4) 0 =
        Bytes.u32 (block.window nodePosition IndexNode.headerSize) 8 := by
      rw [Buffer.window_eq, Buffer.window_eq, Bytes.u32_take _ (by decide),
        Bytes.u32_take _ (by decide), Bytes.u32_drop, Bytes.u32_drop]
    rw [Bytes.u32?_eq_some hinside, hfield, ← Option.some.inj h]

namespace InBlocks

variable {announced : Option UInt32} {size : Nat} {first : Buffer} {rest : List Buffer}

theorem isBlock_concat (h : InBlocks announced size first rest) :
    isBlock (.concat (first :: rest)) = true := by
  have hge := h.size_ge
  have hfirst := h.size_eq first List.mem_cons_self
  rw [isBlock, Buffer.window_concat_cons rest (by omega)]
  exact h.inUse

theorem blockSizeOf_concat (h : InBlocks announced size first rest) :
    blockSizeOf (.concat (first :: rest)) announced = size := by
  have hge := h.size_ge
  have hfirst := h.size_eq first List.mem_cons_self
  have hvalid := isBlockSize_of_isPower hge h.isPower
  obtain hannounced | ⟨rfl, node, hnode, hallocated⟩ := h.tells
  · rw [blockSizeOf, hannounced, Option.filter_some_pos hvalid]
  · have hinside : nodePosition + 8 + 4 ≤ first.size := by
      rw [nodePosition]
      omega
    simp only [blockSizeOf, Buffer.window_concat_cons rest hinside, u32?_allocated hnode,
      Option.map_none, Option.filter_none, Option.map_some, hallocated, Option.filter_some_pos hvalid,
      Option.getD_some]

/-- The content of an allocation that is made up of blocks is read block by block. -/
theorem decode_concat (h : InBlocks announced size first rest) (fileNameKeys : Bool) :
    decode (.concat (first :: rest)) announced fileNameKeys =
      contentOf fileNameKeys (first :: rest) := by
  have hpos : 0 < size := Nat.lt_of_lt_of_le (by decide) h.size_ge
  have hpieces := Buffer.pieces_concat hpos h.size_eq
  rw [decode, if_pos h.isBlock_concat, h.blockSizeOf_concat]
  simp only [hpieces, Noted.map, filterMap_decodeBlocks, notes_decodeBlocks, List.length_map]
  rw [contentOf, List.countP_eq_length_filter, entriesOf, List.flatMap_def]

/-- A block that is not torn is read alone as it is read beside others. -/
theorem decode_alone (h : InBlocks announced size first []) (hintact : isIntact first = true)
    (fileNameKeys : Bool) : decode first announced fileNameKeys =
      ⟨⟨true, 1, (nodeOf fileNameKeys first).value⟩, (nodeOf fileNameKeys first).notes⟩ := by
  have hsingle : Buffer.concat [first] = first :=
    Buffer.ext (by rw [Buffer.toList_concat, List.map_singleton, List.flatten_singleton])
  have hdecode := h.decode_concat fileNameKeys
  rw [hsingle] at hdecode
  have hfilter : [first].filter isIntact = [first] := by
    rw [List.filter_cons_of_pos hintact, List.filter_nil]
  rw [hdecode, contentOf, List.countP_eq_length_filter, entriesOf, hfilter, notesFrom_cons,
    notesOf_of_intact hintact, List.flatMap_singleton]
  show Noted.mk _ ((nodeOf fileNameKeys first).notes ++ []) = _
  rw [List.append_nil]
  rfl

/-- A block behind the first one may be written over. -/
theorem replace {front back : List Buffer} {old new : Buffer}
    (h : InBlocks announced size first (front ++ old :: back)) (hnew : new.size = size) :
    InBlocks announced size first (front ++ new :: back) where
  size_ge := h.size_ge
  isPower := h.isPower
  size_eq := by
    have hsize := h.size_eq
    simp only [List.forall_mem_cons, List.forall_mem_append] at hsize ⊢
    obtain ⟨hfirst, hfront, -, hback⟩ := hsize
    exact ⟨hfirst, hfront, hnew, hback⟩
  inUse := h.inUse
  tells := h.tells

/-- A block that tells the size may stand alone. -/
theorem alone {block : Buffer} {told : Option UInt32} (h : InBlocks announced size first rest)
    (hmem : block ∈ first :: rest) (hused : isBlock block = true) (htells : TellsSize block told size) :
    InBlocks told size block [] where
  size_ge := h.size_ge
  isPower := h.isPower
  size_eq := by
    intro b hb
    rw [List.mem_singleton.mp hb]
    exact h.size_eq block hmem
  inUse := hused
  tells := htells

end InBlocks

/-- A block adds its own entries and notes to those of the others, and is counted if it is intact. -/
theorem contentOf_split {fileNameKeys : Bool} (front back : List Buffer) (block : Buffer) :
    contentOf fileNameKeys (front ++ block :: back) =
      ⟨⟨true, .ofNat (front.countP isIntact + back.countP isIntact + [block].countP isIntact),
          entriesOf fileNameKeys front ++ entriesOf fileNameKeys [block] ++
            entriesOf fileNameKeys back⟩,
        notesFrom fileNameKeys 0 front ++ notesOf fileNameKeys front.length block ++
          notesFrom fileNameKeys (front.length + 1) back⟩ := by
  have hcount : (front ++ block :: back).countP isIntact =
      front.countP isIntact + back.countP isIntact + [block].countP isIntact := by
    rw [List.countP_append, ← List.singleton_append, List.countP_append]
    omega
  have hentries : entriesOf fileNameKeys (front ++ block :: back) =
      entriesOf fileNameKeys front ++ entriesOf fileNameKeys [block] ++
        entriesOf fileNameKeys back := by
    rw [entriesOf_append, ← List.singleton_append, entriesOf_append, List.append_assoc]
  have hnotes : notesFrom fileNameKeys 0 (front ++ block :: back) =
      notesFrom fileNameKeys 0 front ++ notesOf fileNameKeys front.length block ++
        notesFrom fileNameKeys (front.length + 1) back := by
    rw [notesFrom_append, notesFrom_cons, Nat.zero_add, List.append_assoc]
  rw [contentOf, hcount, hentries, hnotes]

/-- An allocation holds what its intact blocks hold, in order; there is a note for each torn one, and
nothing is taken from unused ones.  What an intact block holds is what it is decoded to when it stands
alone.  Whatever is written over a block behind the first one, the others add the same; and when the
first one is torn, nothing is missing but what it held. -/
theorem blocks_read_apart {announced : Option UInt32} {size : Nat} {first : Buffer} {rest : List Buffer}
    (h : InBlocks announced size first rest) (fileNameKeys : Bool) :
    decode (.concat (first :: rest)) announced fileNameKeys =
        contentOf fileNameKeys (first :: rest) ∧
      (∀ b ∈ first :: rest, isIntact b = true → ∀ told, TellsSize b told size →
        decode b told fileNameKeys =
          ⟨⟨true, 1, (nodeOf fileNameKeys b).value⟩, (nodeOf fileNameKeys b).notes⟩) ∧
      (∀ front old back, rest = front ++ old :: back →
        ∃ before after : List IndexEntry, ∃ others : Nat, ∃ notesBefore notesAfter : List Note,
          ∀ new : Buffer, new.size = size →
            decode (.concat (first :: (front ++ new :: back))) announced fileNameKeys =
              ⟨⟨true, .ofNat (others + [new].countP isIntact),
                  before ++ entriesOf fileNameKeys [new] ++ after⟩,
                notesBefore ++ notesOf fileNameKeys (front.length + 1) new ++ notesAfter⟩) ∧
      ∀ fault, fixupOf first = .error fault →
        decode (.concat (first :: rest)) announced fileNameKeys =
          ⟨⟨true, .ofNat (rest.countP isIntact), entriesOf fileNameKeys rest⟩,
            .indexBlock 0 fault :: notesFrom fileNameKeys 1 rest⟩ := by
  refine ⟨h.decode_concat fileNameKeys, ?_, ?_, ?_⟩
  · intro b hmem hintact told htells
    have hused := (Bool.and_eq_true_iff.mp hintact).1
    exact (h.alone hmem hused htells).decode_alone hintact fileNameKeys
  · rintro front old back rfl
    refine ⟨entriesOf fileNameKeys (first :: front), entriesOf fileNameKeys back,
      (first :: front).countP isIntact + back.countP isIntact,
      notesFrom fileNameKeys 0 (first :: front), notesFrom fileNameKeys (front.length + 2) back, ?_⟩
    intro new hnew
    rw [(h.replace hnew).decode_concat fileNameKeys]
    exact contentOf_split (first :: front) back new
  · intro fault htorn
    have hlost : ¬ isIntact first = true := by
      rw [isIntact_of_torn htorn]
      exact Bool.false_ne_true
    rw [h.decode_concat fileNameKeys, contentOf, List.countP_cons_of_neg hlost, entriesOf,
      List.filter_cons_of_neg hlost, ← entriesOf, notesFrom_cons, notesOf_of_torn h.inUse htorn]
    rfl

/-- A block of one sector with a node of one entry.  Its update sequence number is 1. -/
def oneSector (tail : UInt8 × UInt8) : Buffer :=
  .ofList ([0x49, 0x4E, 0x44, 0x58, 0x28, 0, 2, 0] ++ List.replicate 16 0 ++
    [40, 0, 0, 0, 56, 0, 0, 0, 0xE8, 1, 0, 0, 0, 0, 0, 0, 1, 0] ++ List.replicate 22 0 ++
    [5, 0, 0, 0, 0, 0, 0, 0, 16, 0, 0, 0, 2, 0, 0, 0] ++ List.replicate 430 0 ++ [tail.1, tail.2])

theorem size_oneSector (tail : UInt8 × UInt8) : (oneSector tail).size = 512 := by
  rw [oneSector, Buffer.size_ofList]
  simp only [List.length_append, List.length_replicate, List.length_cons, List.length_nil]

/-- Of three blocks the first is torn and the last unused. -/
theorem blocks_read_apart_torn :
    InBlocks none 512 (oneSector (9, 9)) [oneSector (1, 0), .ofList (List.replicate 512 0)] ∧
    decode (.concat [oneSector (9, 9), oneSector (1, 0), .ofList (List.replicate 512 0)]) none false =
      ⟨⟨true, 1, [⟨⟨5, 0⟩, 16, 0, 2, none, none⟩]⟩, [.indexBlock 0 (.torn 1)]⟩ := by
  have hblocks :
      InBlocks none 512 (oneSector (9, 9)) [oneSector (1, 0), .ofList (List.replicate 512 0)] := {
    size_ge := by decide
    isPower := ⟨9, rfl⟩
    size_eq := by
      have hunused : (Buffer.ofList (List.replicate 512 0)).size = 512 := by
        rw [Buffer.size_ofList, List.length_replicate]
      simp only [List.forall_mem_cons, List.not_mem_nil, false_implies, implies_true, and_true]
      exact ⟨size_oneSector _, size_oneSector _, hunused⟩
    inUse := by
      rw [isBlock, Buffer.window_eq, oneSector, Buffer.toList_ofList]
      rfl
    tells := by
      refine .inr ⟨rfl, ⟨40, 56, 488, 0⟩, ?_, rfl⟩
      rw [IndexNode.decode?, Buffer.window_eq, oneSector, Buffer.toList_ofList]
      rfl }
  refine ⟨hblocks, ?_⟩
  rw [(blocks_read_apart hblocks false).1, oneSector, oneSector, Buffer.ofList_eq_mk,
    Buffer.ofList_eq_mk, Buffer.ofList_eq_mk]
  decide +kernel

end Ntfs.IndexAllocation
