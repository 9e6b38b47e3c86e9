import Ntfs.Attribute.ListEntry
import Ntfs.Proofs.Bytes.Window

/-!
# What an entry of an attribute list is read from

The shortest entry has 24 bytes, and the fixed fields end two bytes later.  The attribute id stands in
these two, and the name wherever its own fields say.  So an entry tells everything but its id and its
name with the bytes it declares, and both of these too when they end inside of it
(`entry_of_own_bytes`).  Where they do not, the entry behind it shows in them
(`id_and_name_of_next_entry`).
-/

namespace Ntfs.ListEntry

/-- The place behind entries of which the first one stands at `start`. -/
def placeBehind (start : Nat) (entries : List ListEntry) : Nat :=
  entries.foldl (fun offset e => offset + e.length.toNat) start

/-- The walk over a list finds an entry at `offset`. -/
def EmittedAt (list : Buffer) (offset : Nat) (e : ListEntry) : Prop :=
  ∃ before after, (decodeAll list).value = before ++ e :: after ∧ placeBehind 0 before = offset

/-- Where the name of an entry ends, counted from its start. -/
def nameEnd (e : ListEntry) : Nat :=
  if e.nameLength = 0 then 0 else e.nameOffset.toNat + 2 * e.nameLength.toNat

/-- A step of the walk reads the entry it stands at and goes on behind it. -/
theorem decodeFrom_value_cons {list : Buffer} {start : Nat} {e : ListEntry} {rest : List ListEntry}
    (h : (decodeFrom list start).value = e :: rest) :
    minSize ≤ e.length.toNat ∧ e = (decodeAt list start (list.window start fixedSize)).value ∧
      rest = (decodeFrom list (start + e.length.toNat)).value := by
  revert h
  fun_cases decodeFrom list start with
  | case1 | case2 | case3 | case4 => exact fun h => nomatch h
  | case5 hinside fixed hwhole length hpadding hlength =>
      intro h
      obtain ⟨rfl, rfl⟩ := List.cons.inj h
      exact ⟨Nat.not_lt.mp hlength, rfl, rfl⟩

/-- What the walk finds at a place is what is read there. -/
theorem of_decodeFrom {list : Buffer} {start offset : Nat} {e : ListEntry} {before after : List ListEntry}
    (hvalue : (decodeFrom list start).value = before ++ e :: after)
    (hplace : placeBehind start before = offset) :
    minSize ≤ e.length.toNat ∧ e = (decodeAt list offset (list.window offset fixedSize)).value := by
  induction before generalizing start with
  | nil =>
      obtain ⟨hlength, heq, -⟩ := decodeFrom_value_cons hvalue
      obtain rfl : start = offset := hplace
      exact ⟨hlength, heq⟩
  | cons first before ih =>
      obtain ⟨-, -, hrest⟩ := decodeFrom_value_cons hvalue
      exact ih hrest.symm hplace

/-! ## Reading the same bytes -/

section Agree

variable {a b : Buffer} {offset : Nat} {left right : Bytes}

/-- All fixed fields but the id stand in the shortest entry. -/
theorem fields_congr (h : left.take minSize = right.take minSize) :
    { (decodeAt b offset right).value with
      attributeId := (decodeAt a offset left).value.attributeId
      name := (decodeAt a offset left).value.name } = (decodeAt a offset left).value := by
  have hbyte {place : Nat} (hin : place < minSize) : Bytes.u8 left place = Bytes.u8 right place :=
    Bytes.u8_of_take_eq h hin
  have hword {place width : Nat} (hin : place + width ≤ minSize) :
      Bytes.word? left place width = Bytes.word? right place width := Bytes.word?_of_take_eq h hin
  simp only [decodeAt, Noted.map, Bytes.u16, Bytes.u32, Bytes.u64, Bytes.u16?, Bytes.u32?, Bytes.u64?,
    hbyte (show 6 < minSize by decide), hbyte (show 7 < minSize by decide),
    hword (show 0 + 4 ≤ minSize by decide), hword (show 4 + 2 ≤ minSize by decide),
    hword (show 8 + 8 ≤ minSize by decide), hword (show 16 + 8 ≤ minSize by decide)]

/-- The id stands behind these fields. -/
theorem id_congr (h : left.part minSize 2 = right.part minSize 2) :
    (decodeAt b offset right).value.attributeId = (decodeAt a offset left).value.attributeId := by
  have hword : Bytes.word? left minSize 2 = Bytes.word? right minSize 2 := Bytes.word?_congr h
  rw [minSize] at hword
  simp only [decodeAt, Noted.map, Bytes.u16, Bytes.u16?, hword]

/-- The name of an entry depends on nothing behind its last unit. -/
theorem name_congr (hsize : a.size = b.size) (h : left.take minSize = right.take minSize)
    (hsame : ∀ i, offset ≤ i → i < offset + nameEnd (decodeAt a offset left).value →
      a.byte i = b.byte i) :
    (decodeAt b offset right).value.name = (decodeAt a offset left).value.name := by
  have hbyte {place : Nat} (hin : place < minSize) : Bytes.u8 right place = Bytes.u8 left place :=
    Bytes.u8_of_take_eq h.symm hin
  have hend (hunits : 0 < (Bytes.u8 left 6).toNat) : nameEnd (decodeAt a offset left).value =
      (Bytes.u8 left 7).toNat + 2 * (Bytes.u8 left 6).toNat :=
    if_neg fun hnone => by
      rw [show Bytes.u8 left 6 = 0 from hnone] at hunits
      exact absurd hunits (by decide)
  have hwindow : a.window (offset + (Bytes.u8 left 7).toNat) (2 * (Bytes.u8 left 6).toNat) =
      b.window (offset + (Bytes.u8 left 7).toNat) (2 * (Bytes.u8 left 6).toNat) := by
    refine Buffer.window_congr hsize fun i hle hlt => hsame i (by omega) ?_
    rw [hend (by omega)]
    omega
  refine congrArg Noted.value (?_ : decodeName b offset right = decodeName a offset left)
  simp only [decodeName, hbyte (show 6 < minSize by decide), hbyte (show 7 < minSize by decide),
    hwindow]

end Agree

/-- Two lists of one size that agree on the bytes of an entry of both: the entry is the same but for its
attribute id and its name.  Each of these is the same too where it ends inside the entry, and both are
where the lists agree up to the end of the fixed fields and of the name. -/
theorem entry_of_own_bytes {a b : Buffer} {offset : Nat} {ea eb : ListEntry} (hsize : a.size = b.size)
    (ha : EmittedAt a offset ea) (hb : EmittedAt b offset eb)
    (hsame : ∀ i, offset ≤ i → i < offset + ea.length.toNat → a.byte i = b.byte i) :
    { eb with attributeId := ea.attributeId, name := ea.name } = ea ∧
      (fixedSize ≤ ea.length.toNat → eb.attributeId = ea.attributeId) ∧
      (nameEnd ea ≤ ea.length.toNat → eb.name = ea.name) ∧
      ((∀ i, offset + ea.length.toNat ≤ i → i < offset + max fixedSize (nameEnd ea) →
        a.byte i = b.byte i) → eb = ea) := by
  obtain ⟨_, _, hvalueA, hplaceA⟩ := ha
  obtain ⟨_, _, hvalueB, hplaceB⟩ := hb
  obtain ⟨hlength, hea⟩ := of_decodeFrom hvalueA hplaceA
  obtain ⟨-, heb⟩ := of_decodeFrom hvalueB hplaceB
  have hfront : (a.window offset fixedSize).take minSize = (b.window offset fixedSize).take minSize :=
    Buffer.part_window_congr hsize (show 0 + minSize ≤ fixedSize by decide)
      fun i hle hlt => hsame i hle (by omega)
  have hid (hbytes : ∀ i, offset + minSize ≤ i → i < offset + fixedSize → a.byte i = b.byte i) :
      eb.attributeId = ea.attributeId := by
    rw [hea, heb]
    exact id_congr (Buffer.part_window_congr hsize (by decide) hbytes)
  have hname (hbytes : ∀ i, offset ≤ i → i < offset + nameEnd ea → a.byte i = b.byte i) :
      eb.name = ea.name := by
    rw [hea] at hbytes ⊢
    rw [heb]
    exact name_congr hsize hfront hbytes
  have hfields : { eb with attributeId := ea.attributeId, name := ea.name } = ea := by
    rw [hea, heb]
    exact fields_congr hfront
  refine ⟨hfields, fun hin => hid fun i hle hlt => ?_, fun hin => hname fun i hle hlt => ?_,
    fun hrest => ?_⟩
  · exact hsame i (by omega) (by omega)
  · exact hsame i hle (by omega)
  · have hboth (i : Nat) (hle : offset ≤ i) (hlt : i < offset + max fixedSize (nameEnd ea)) :
        a.byte i = b.byte i := by
      by_cases hi : i < offset + ea.length.toNat
      · exact hsame i hle hi
      · exact hrest i (Nat.not_lt.mp hi) hlt
    rwa [← hid fun i hle hlt => hboth i (by omega) (by omega),
      ← hname fun i hle hlt => hboth i hle (by omega)] at hfields

/-- An entry of the given length and code, and where its name stands. -/
def entryBytes (code length units place : UInt8) : Bytes :=
  [code, 0, 0, 0, length, 0, units, place] ++ List.replicate (length.toNat - 8) 0

/-- An entry with a name and a shortest one behind it. -/
def twoEntries (length units place next : UInt8) : Buffer :=
  .ofList (entryBytes 0x80 length units place ++ entryBytes next 24 0 0)

section TwoEntries

variable {length : UInt8} (units place next : UInt8)

theorem length_entryBytes (code : UInt8) (h : 8 ≤ length.toNat) :
    (entryBytes code length units place).length = length.toNat := by
  simp only [entryBytes, List.length_append, List.length_replicate, List.length_cons, List.length_nil]
  omega

theorem size_twoEntries (h : 8 ≤ length.toNat) :
    (twoEntries length units place next).size = length.toNat + 24 := by
  rw [twoEntries, Buffer.size_ofList, List.length_append, length_entryBytes units place _ h,
    length_entryBytes 0 0 _ (by decide)]
  rfl

/-- The second entry does not show in the bytes of the first. -/
theorem byte_twoEntries (h : 8 ≤ length.toNat) (other : UInt8) {i : Nat} (hi : i < length.toNat) :
    (twoEntries length units place next).byte i = (twoEntries length units place other).byte i := by
  have hfront : i < (entryBytes 0x80 length units place).length := by
    rwa [length_entryBytes units place _ h]
  simp only [Buffer.byte_eq, twoEntries, Buffer.toList_ofList, List.getD_eq_getElem?_getD,
    List.getElem?_append_left hfront]

theorem emittedAt_twoEntries {e : ListEntry}
    (h : (decodeAll ⟨⟨⟨entryBytes 0x80 length units place ++ entryBytes next 24 0 0⟩⟩⟩).value.head? =
      some e) : EmittedAt (twoEntries length units place next) 0 e := by
  rw [← Buffer.ofList_eq_mk] at h
  obtain ⟨rest, hrest⟩ := List.head?_eq_some_iff.mp h
  exact ⟨[], rest, hrest, rfl⟩

end TwoEntries

/-- What a second entry is for does not show in a first one that has room for its id and its name. -/
theorem entry_of_own_bytes_named :
    (twoEntries 32 2 28 0x30).size = (twoEntries 32 2 28 0x40).size ∧
    twoEntries 32 2 28 0x30 ≠ twoEntries 32 2 28 0x40 ∧
    ∃ ea eb, EmittedAt (twoEntries 32 2 28 0x30) 0 ea ∧ EmittedAt (twoEntries 32 2 28 0x40) 0 eb ∧
      eb.attributeId = ea.attributeId ∧ eb.name = ea.name := by
  have ha : EmittedAt (twoEntries 32 2 28 0x30) 0 ⟨.data, 32, 2, 28, 0, ⟨0, 0⟩, 0, some "\x00\x00"⟩ :=
    emittedAt_twoEntries 2 28 0x30 (by decide +kernel)
  have hb : EmittedAt (twoEntries 32 2 28 0x40) 0 ⟨.data, 32, 2, 28, 0, ⟨0, 0⟩, 0, some "\x00\x00"⟩ :=
    emittedAt_twoEntries 2 28 0x40 (by decide +kernel)
  have hsize : (twoEntries 32 2 28 0x30).size = (twoEntries 32 2 28 0x40).size := by
    rw [size_twoEntries _ _ _ (by decide), size_twoEntries _ _ _ (by decide)]
  have hother : twoEntries 32 2 28 0x30 ≠ twoEntries 32 2 28 0x40 := fun h =>
    absurd (congrArg (Buffer.byte · 32) h) (by decide +kernel)
  obtain ⟨-, hid, hname, -⟩ := entry_of_own_bytes hsize ha hb fun i _ hlt =>
    byte_twoEntries 2 28 0x30 (by decide) 0x40 hlt
  exact ⟨hsize, hother, _, _, ha, hb, hid (by decide), hname (by decide)⟩

/-- The shortest entry takes its id from the bytes of the next one, and its name from wherever it says. -/
theorem id_and_name_of_next_entry :
    (¬ ∀ (a b : Buffer) (offset : Nat) (ea eb : ListEntry), a.size = b.size →
      EmittedAt a offset ea → EmittedAt b offset eb →
      (∀ i, offset ≤ i → i < offset + ea.length.toNat → a.byte i = b.byte i) →
      eb.attributeId = ea.attributeId) ∧
    ¬ ∀ (a b : Buffer) (offset : Nat) (ea eb : ListEntry), a.size = b.size →
      EmittedAt a offset ea → EmittedAt b offset eb →
      (∀ i, offset ≤ i → i < offset + ea.length.toNat → a.byte i = b.byte i) →
      eb.name = ea.name := by
  have ha : EmittedAt (twoEntries 24 1 24 0x30) 0 ⟨.data, 24, 1, 24, 0, ⟨0, 0⟩, 0x30, some "0"⟩ :=
    emittedAt_twoEntries 1 24 0x30 (by decide +kernel)
  have hb : EmittedAt (twoEntries 24 1 24 0x40) 0 ⟨.data, 24, 1, 24, 0, ⟨0, 0⟩, 0x40, some "@"⟩ :=
    emittedAt_twoEntries 1 24 0x40 (by decide +kernel)
  have hsize : (twoEntries 24 1 24 0x30).size = (twoEntries 24 1 24 0x40).size := by
    rw [size_twoEntries _ _ _ (by decide), size_twoEntries _ _ _ (by decide)]
  have hsame (i : Nat) (_ : 0 ≤ i) (hlt : i < 0 + (24 : UInt16).toNat) :
      (twoEntries 24 1 24 0x30).byte i = (twoEntries 24 1 24 0x40).byte i :=
    byte_twoEntries 1 24 0x30 (by decide) 0x40 hlt
  refine ⟨fun hclaim => ?_, fun hclaim => ?_⟩
  · exact absurd (hclaim _ _ 0 _ _ hsize ha hb hsame) (by decide)
  · exact absurd (hclaim _ _ 0 _ _ hsize ha hb hsame) (by decide)

end Ntfs.ListEntry
