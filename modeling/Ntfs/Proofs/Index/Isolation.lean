import Ntfs.Attribute.Index
import Ntfs.Proofs.Bytes.Window

/-!
# What an entry of an index is read from

An entry is found at its place by the declared lengths of those before it.  What is read of it are its
header, the last eight bytes of its declared length and its key.  The first two lie inside the entry.
The key lies where its own length says, which is bounded by the used area of the node and not by the
entry: `entry_is_its_bytes` says what follows for two nodes that agree on the entry, and
`entry_reads_the_next` is a node with a key that runs into the next entry.
-/

namespace Ntfs.IndexEntry

/-- Entries with their places, where the first stands at `offset`. -/
def placed (offset : Nat) : List IndexEntry → List (Nat × IndexEntry)
  | [] => []
  | e :: rest => (offset, e) :: placed (offset + e.length.toNat) rest

/-- The entries of a node with their places. -/
def emitted (fileNameKeys : Bool) (raw : Buffer) (position : Nat) : List (Nat × IndexEntry) :=
  match IndexNode.decode? raw position with
  | none => []
  | some node =>
    placed (position + node.entriesOffset.toNat) (decodeNode fileNameKeys raw position).value

theorem map_snd_placed (offset : Nat) (entries : List IndexEntry) :
    (placed offset entries).map Prod.snd = entries := by
  induction entries generalizing offset with
  | nil => rfl
  | cons e rest ih => rw [placed, List.map_cons, ih]

/-- Every entry of a node has a place. -/
theorem map_snd_emitted (fileNameKeys : Bool) (raw : Buffer) (position : Nat) :
    (emitted fileNameKeys raw position).map Prod.snd =
      (decodeNode fileNameKeys raw position).value := by
  rw [emitted]
  cases hnode : IndexNode.decode? raw position with
  | none =>
      rw [decodeNode, hnode]
      rfl
  | some node => exact map_snd_placed _ _

theorem emitted_of_node {fileNameKeys : Bool} {raw : Buffer} {position : Nat} {node : IndexNode}
    (h : IndexNode.decode? raw position = some node) :
    emitted fileNameKeys raw position =
      placed (position + node.entriesOffset.toNat)
        (decodeFrom fileNameKeys (raw.slice 0 (position + node.usedLength.toNat))
          (position + node.entriesOffset.toNat)).value := by
  rw [emitted, decodeNode, h]

/-- What the walk finds at a place is what is read there. -/
theorem of_mem_placed {fileNameKeys : Bool} {area : Buffer} {start offset : Nat} {e : IndexEntry}
    (h : (offset, e) ∈ placed start (decodeFrom fileNameKeys area start).value) :
    headerSize ≤ e.length.toNat ∧
      e = (decodeAt fileNameKeys area offset (area.window offset headerSize)).value := by
  fun_induction decodeFrom fileNameKeys area start with
  | case1 => cases h
  | case2 => cases h
  | case3 start hroom header length hlength entry hlast =>
      obtain ⟨rfl, rfl⟩ := Prod.mk.inj (List.mem_singleton.mp h)
      exact ⟨Nat.not_lt.mp hlength, rfl⟩
  | case4 start hroom header length hlength entry hlast ih =>
      rcases List.mem_cons.mp h with h | h
      · obtain ⟨rfl, rfl⟩ := Prod.mk.inj h
        exact ⟨Nat.not_lt.mp hlength, rfl⟩
      · exact ih h

/-! ## Reading the same bytes -/

section Agree

variable {a b : Buffer} {offset : Nat} {header : Bytes} (fileNameKeys : Bool)

theorem decodeChild?_congr {length : Nat} (hsize : a.size = b.size) (hlength : headerSize ≤ length)
    (hsame : ∀ i, offset ≤ i → i < offset + length → a.byte i = b.byte i) :
    decodeChild? a offset length = decodeChild? b offset length := by
  rw [headerSize] at hlength
  rw [decodeChild?, decodeChild?, Buffer.window_congr hsize fun i hle hlt =>
    hsame i (by omega) (by omega)]

/-- The key of an entry is read from its own bytes. -/
theorem decodeKey_congr (hsize : a.size = b.size)
    (hsame : ∀ i, offset + headerSize ≤ i →
      i < offset + headerSize + (Bytes.u16 header 10).toNat → a.byte i = b.byte i) :
    decodeKey fileNameKeys a offset header = decodeKey fileNameKeys b offset header := by
  simp only [decodeKey]
  rw [Buffer.window_congr hsize fun i hle hlt => hsame i hle (by omega)]

theorem decodeKey_of_unread (h : fileNameKeys = false ∨ marksLast (Bytes.u32 header 12) = true) :
    decodeKey fileNameKeys a offset header = .clean none := by
  have hunread : ¬ (fileNameKeys && (Bytes.u16 header 10).toNat != 0 &&
      !marksLast (Bytes.u32 header 12)) = true := by
    simp only [Bool.and_eq_true, Bool.not_eq_true', not_and]
    obtain hkeys | hlast := h
    · rw [hkeys]
      exact fun hread => absurd hread.1 Bool.false_ne_true
    · exact fun _ hread => absurd (hlast.symm.trans hread) (by decide)
  rw [decodeKey]
  exact if_neg hunread

/-- Apart from the name nothing is read but the bytes of the entry. -/
theorem fields_congr (hsize : a.size = b.size)
    (hlength : headerSize ≤ (Bytes.u16 header 8).toNat)
    (hsame : ∀ i, offset ≤ i → i < offset + (Bytes.u16 header 8).toNat → a.byte i = b.byte i) :
    { (decodeAt fileNameKeys b offset header).value with
      fileName := (decodeAt fileNameKeys a offset header).value.fileName } =
      (decodeAt fileNameKeys a offset header).value := by
  simp only [decodeAt, Noted.map, decodeChild?_congr hsize hlength hsame]

end Agree

/-- Entries at one place of two nodes are read from used areas that agree where the nodes do. -/
theorem areas_of_emitted {fileNameKeys : Bool} {a b : Buffer} {position offset : Nat}
    {ea eb : IndexEntry} (hsize : a.size = b.size)
    (hnode : IndexNode.decode? a position = IndexNode.decode? b position)
    (ha : (offset, ea) ∈ emitted fileNameKeys a position)
    (hb : (offset, eb) ∈ emitted fileNameKeys b position) :
    ∃ areaA areaB : Buffer, areaA.size = areaB.size ∧
      (∀ i, a.byte i = b.byte i → areaA.byte i = areaB.byte i) ∧
      headerSize ≤ ea.length.toNat ∧
      ea = (decodeAt fileNameKeys areaA offset (areaA.window offset headerSize)).value ∧
      eb = (decodeAt fileNameKeys areaB offset (areaB.window offset headerSize)).value := by
  cases hfound : IndexNode.decode? a position with
  | none =>
      rw [emitted, hfound] at ha
      cases ha
  | some node =>
      rw [emitted_of_node hfound] at ha
      rw [emitted_of_node (hnode ▸ hfound)] at hb
      obtain ⟨hlength, hea⟩ := of_mem_placed ha
      obtain ⟨-, heb⟩ := of_mem_placed hb
      refine ⟨_, _, ?_, ?_, hlength, hea, heb⟩
      · rw [Buffer.size_slice, Buffer.size_slice, hsize]
      · intro i hi
        rw [Buffer.byte_slice, Buffer.byte_slice, hi]

/-- Two nodes of one size and with one header that agree on the bytes of an entry of both: the entry is
the same but for its name.  The name is the same too where no key is read, where the key ends inside
the entry, and where the nodes agree on the rest of the key. -/
theorem entry_is_its_bytes {fileNameKeys : Bool} {a b : Buffer} {position offset : Nat}
    {ea eb : IndexEntry} (hsize : a.size = b.size)
    (hnode : IndexNode.decode? a position = IndexNode.decode? b position)
    (ha : (offset, ea) ∈ emitted fileNameKeys a position)
    (hb : (offset, eb) ∈ emitted fileNameKeys b position)
    (hsame : ∀ i, offset ≤ i → i < offset + ea.length.toNat → a.byte i = b.byte i) :
    { eb with fileName := ea.fileName } = ea ∧
      (fileNameKeys = false ∨ ea.isLast = true ∨
        headerSize + ea.keyLength.toNat ≤ ea.length.toNat → eb = ea) ∧
      ((∀ i, offset + ea.length.toNat ≤ i → i < offset + headerSize + ea.keyLength.toNat →
        a.byte i = b.byte i) → eb = ea) := by
  obtain ⟨areaA, areaB, hareaSize, harea, hlength, hea, heb⟩ := areas_of_emitted hsize hnode ha hb
  have hwindow : areaA.window offset headerSize = areaB.window offset headerSize :=
    Buffer.window_congr hareaSize fun i hle hlt => harea i (hsame i hle (by omega))
  rw [← hwindow] at heb
  generalize areaA.window offset headerSize = header at hea heb
  subst hea heb
  have hentry : ∀ i, offset ≤ i → i < offset + (Bytes.u16 header 8).toNat →
      areaA.byte i = areaB.byte i := fun i hle hlt => harea i (hsame i hle hlt)
  have hfields := fields_congr fileNameKeys hareaSize hlength hentry
  have hsameName (hkey : decodeKey fileNameKeys areaB offset header =
      decodeKey fileNameKeys areaA offset header) :
      (decodeAt fileNameKeys areaB offset header).value =
        (decodeAt fileNameKeys areaA offset header).value := by
    have hname : (decodeAt fileNameKeys areaB offset header).value.fileName =
        (decodeAt fileNameKeys areaA offset header).value.fileName := congrArg Noted.value hkey
    rwa [← hname] at hfields
  have hsameKey (hrest : ∀ i, offset + (Bytes.u16 header 8).toNat ≤ i →
      i < offset + headerSize + (Bytes.u16 header 10).toNat → a.byte i = b.byte i) :
      (decodeAt fileNameKeys areaB offset header).value =
        (decodeAt fileNameKeys areaA offset header).value := by
    refine hsameName (decodeKey_congr fileNameKeys hareaSize fun i hle hlt => ?_).symm
    by_cases hi : i < offset + (Bytes.u16 header 8).toNat
    · exact hentry i (by omega) hi
    · exact harea i (hrest i (Nat.not_lt.mp hi) hlt)
  refine ⟨hfields, ?_, hsameKey⟩
  rintro (hkeys | hlast | hinside)
  · apply hsameName
    rw [decodeKey_of_unread fileNameKeys (.inl hkeys), decodeKey_of_unread fileNameKeys (.inl hkeys)]
  · apply hsameName
    rw [decodeKey_of_unread fileNameKeys (.inr hlast), decodeKey_of_unread fileNameKeys (.inr hlast)]
  · -- nothing of the key is left behind the entry
    refine hsameKey fun i hle hlt => ?_
    have hkey : headerSize + (Bytes.u16 header 10).toNat ≤ (Bytes.u16 header 8).toNat := hinside
    omega

/-- The header of a node of 120 bytes, and an entry of the given length whose key has 66 bytes. -/
def entryOf (length : UInt8) : Bytes :=
  [16, 0, 0, 0, 120, 0, 0, 0, 120, 0, 0, 0, 0, 0, 0, 0] ++
    [40, 0, 0, 0, 0, 0, 1, 0, length, 0, 66, 0, 0, 0, 0, 0] ++ List.replicate (length.toNat - 16) 0

def lastOf (file : UInt8) : Bytes := [file, 0, 0, 0, 0, 0, 1, 0, 16, 0, 0, 0, 2, 0, 0, 0]

def twoEntries (length file : UInt8) : Buffer :=
  .ofList (entryOf length ++ (lastOf file ++ List.replicate (88 - length.toNat) 0))

/-- The first of them, where its key is read from the given bytes. -/
def firstEntry (length : UInt16) (key : Bytes) : IndexEntry where
  file := ⟨40, 1⟩
  length := length
  keyLength := 66
  flags := 0
  fileName := (FileName.decode key).value
  childVcn := none

section TwoEntries

variable {length : UInt8} (file : UInt8)

theorem length_entryOf (hge : 16 ≤ length.toNat) : (entryOf length).length = 16 + length.toNat := by
  simp only [entryOf, List.length_append, List.length_replicate, List.length_cons, List.length_nil]
  omega

theorem size_twoEntries (hge : 16 ≤ length.toNat) (hle : length.toNat ≤ 88) :
    (twoEntries length file).size = 120 := by
  rw [twoEntries, Buffer.size_ofList, List.length_append, length_entryOf hge, List.length_append,
    List.length_replicate]
  show 16 + length.toNat + (16 + (88 - length.toNat)) = 120
  omega

theorem decode?_twoEntries :
    IndexNode.decode? (twoEntries length file) 0 = some ⟨16, 120, 120, 0⟩ := by
  rw [IndexNode.decode?, Buffer.window_eq, twoEntries, Buffer.toList_ofList]
  rfl

/-- What the last entry is for does not show in the size and the header. -/
theorem alike_twoEntries (other : UInt8) (hge : 16 ≤ length.toNat) (hle : length.toNat ≤ 88) :
    (twoEntries length file).size = (twoEntries length other).size ∧
      IndexNode.decode? (twoEntries length file) 0 =
        IndexNode.decode? (twoEntries length other) 0 := by
  rw [size_twoEntries file hge hle, size_twoEntries other hge hle, decode?_twoEntries,
    decode?_twoEntries]
  exact ⟨rfl, rfl⟩

/-- Nor does it show in the first entry. -/
theorem byte_twoEntries (hge : 16 ≤ length.toNat) (other : UInt8) {i : Nat}
    (h : i < 16 + length.toNat) :
    (twoEntries length file).byte i = (twoEntries length other).byte i := by
  have hfront : i < (entryOf length).length := by rwa [length_entryOf hge]
  simp only [Buffer.byte_eq, twoEntries, Buffer.toList_ofList, List.getD_eq_getElem?_getD,
    List.getElem?_append_left hfront]

/-- The whole node is used, and the walk starts with the entry in front. -/
theorem mem_emitted_twoEntries (hge : 16 ≤ length.toNat) (hle : length.toNat ≤ 88) {e : IndexEntry}
    (h : (decodeFrom true ⟨⟨⟨entryOf length ++
      (lastOf file ++ List.replicate (88 - length.toNat) 0)⟩⟩⟩ 16).value.head? = some e) :
    (16, e) ∈ emitted true (twoEntries length file) 0 := by
  have harea : (twoEntries length file).slice 0 120 = twoEntries length file :=
    Buffer.slice_of_size_le (Nat.le_of_eq (size_twoEntries file hge hle))
  have hplaced : emitted true (twoEntries length file) 0 =
      placed 16 (decodeFrom true (twoEntries length file) 16).value := by
    calc emitted true (twoEntries length file) 0
        = placed 16 (decodeFrom true ((twoEntries length file).slice 0 120) 16).value :=
          emitted_of_node (decode?_twoEntries file)
      _ = placed 16 (decodeFrom true (twoEntries length file) 16).value := by rw [harea]
  rw [← Buffer.ofList_eq_mk, ← twoEntries] at h
  obtain ⟨rest, hrest⟩ := List.head?_eq_some_iff.mp h
  rw [hplaced, hrest]
  exact List.mem_cons_self

end TwoEntries

/-- The last entry of a node is changed, and the first one is not. -/
theorem entry_is_its_bytes_two :
    (twoEntries 82 5).size = (twoEntries 82 6).size ∧
    IndexNode.decode? (twoEntries 82 5) 0 = IndexNode.decode? (twoEntries 82 6) 0 ∧
    twoEntries 82 5 ≠ twoEntries 82 6 ∧
    ∃ ea eb, (16, ea) ∈ emitted true (twoEntries 82 5) 0 ∧
      (16, eb) ∈ emitted true (twoEntries 82 6) 0 ∧ eb = ea := by
  have ha : (16, firstEntry 82 (List.replicate 66 0)) ∈ emitted true (twoEntries 82 5) 0 :=
    mem_emitted_twoEntries 5 (by decide) (by decide) (by decide +kernel)
  have hb : (16, firstEntry 82 (List.replicate 66 0)) ∈ emitted true (twoEntries 82 6) 0 :=
    mem_emitted_twoEntries 6 (by decide) (by decide) (by decide +kernel)
  obtain ⟨hsize, hnode⟩ := alike_twoEntries 5 6 (show 16 ≤ (82 : UInt8).toNat by decide) (by decide)
  have hother : twoEntries 82 5 ≠ twoEntries 82 6 := fun h =>
    absurd (congrArg (Buffer.byte · 98) h) (by decide +kernel)
  obtain ⟨-, hsame, -⟩ := entry_is_its_bytes hsize hnode ha hb fun i _ hlt =>
    byte_twoEntries 5 (by decide) 6 hlt
  exact ⟨hsize, hnode, hother, _, _, ha, hb, hsame (.inr (.inr (by decide)))⟩

/-- The key of an entry may run into the entry behind it, and then this one tells the name. -/
theorem entry_reads_the_next :
    ¬ ∀ (a b : Buffer) (position offset : Nat) (ea eb : IndexEntry), a.size = b.size →
      IndexNode.decode? a position = IndexNode.decode? b position →
      (offset, ea) ∈ emitted true a position → (offset, eb) ∈ emitted true b position →
      (∀ i, offset ≤ i → i < offset + ea.length.toNat → a.byte i = b.byte i) →
      eb.fileName = ea.fileName := by
  intro hclaim
  have ha : (16, firstEntry 16 (lastOf 5 ++ List.replicate 50 0)) ∈
      emitted true (twoEntries 16 5) 0 :=
    mem_emitted_twoEntries 5 (by decide) (by decide) (by decide +kernel)
  have hb : (16, firstEntry 16 (lastOf 6 ++ List.replicate 50 0)) ∈
      emitted true (twoEntries 16 6) 0 :=
    mem_emitted_twoEntries 6 (by decide) (by decide) (by decide +kernel)
  obtain ⟨hsize, hnode⟩ := alike_twoEntries 5 6 (show 16 ≤ (16 : UInt8).toNat by decide) (by decide)
  have hname := hclaim _ _ 0 16 _ _ hsize hnode ha hb fun i _ hlt =>
    byte_twoEntries 5 (by decide) 6 hlt
  exact absurd (congrArg (Option.map FileName.parent) hname) (by decide +kernel)

end Ntfs.IndexEntry
