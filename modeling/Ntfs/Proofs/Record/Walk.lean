import Ntfs.Proofs.Bytes.Layout
import Ntfs.Record.Parse

/-!
# The walk over the attributes of a record

The attributes of a record are found by their declared lengths alone.  This file says what the lengths
lead to without decoding anything (`Leads`), and that reading a record is that walk with each attribute
decoded from its own bytes (`attributesFrom_of_leads`).  So what holds of one attribute holds of all of
them by induction along the walk.
-/

namespace Ntfs

namespace Noted

variable {α : Type}

/-- One list after another, each with its notes. -/
def append (xs ys : Noted (List α)) : Noted (List α) :=
  ⟨xs.value ++ ys.value, xs.notes ++ ys.notes⟩

theorem clean_append (xs : Noted (List α)) : (clean []).append xs = xs := rfl

theorem append_clean (xs : Noted (List α)) : xs.append (clean []) = xs := by
  simp [append, clean]

theorem cons_append (x : Noted α) (xs ys : Noted (List α)) :
    (x.cons xs).append ys = x.cons (xs.append ys) := by
  simp [append, cons]

end Noted

namespace Attribute

/-- The attribute that takes exactly the given bytes, where the shared header is among them. -/
def decodeWhole (raw : Bytes) : Noted Attribute :=
  let header := AttributeHeader.decode raw
  let content := if header.value.nonResident
    then NonResidentForm.decode header.value raw else ResidentForm.decode header.value raw
  ⟨⟨header.value, content.value.1, content.value.2⟩, header.notes ++ content.notes⟩

theorem decode_of_size_le {raw : Bytes} (h : AttributeHeader.size ≤ raw.length) :
    decode raw = (decodeWhole raw).map some := by
  rw [decode, if_neg (by omega)]
  rfl

end Attribute

namespace Record

/-- An attribute is declared at `offset`, and what it declares lies inside the record. -/
structure Declares (record : Bytes) (offset length : Nat) : Prop where
  code_ne : Bytes.u32 record offset ≠ AttributeKind.endCode
  length_eq : (Bytes.u32 record (offset + 4)).toNat = length
  header_le : AttributeHeader.size ≤ length
  inside : offset + length ≤ record.length

/-- The declared lengths lead from one position to another. -/
inductive Leads (record : Bytes) : (start : Nat) → (lengths : List Nat) → (stop : Nat) → Prop
  | here {start : Nat} : Leads record start [] start
  | step {start length stop : Nat} {lengths : List Nat} (declares : Declares record start length)
      (rest : Leads record (start + length) lengths stop) :
      Leads record start (length :: lengths) stop

/-- The end mark stands at `offset`. -/
def EndsAt (record : Bytes) (offset : Nat) : Prop :=
  Bytes.u32? record offset = some AttributeKind.endCode

/-- The attributes of the given lengths from `offset` on, each decoded from its own bytes. -/
def attributesAt (record : Bytes) : (offset : Nat) → (lengths : List Nat) → Noted (List Attribute)
  | _, [] => .clean []
  | offset, length :: rest =>
    (Attribute.decodeWhole (record.part offset length)).cons
      (attributesAt record (offset + length) rest)

variable {record : Bytes} {start stop offset length : Nat} {lengths : List Nat}

theorem Leads.le (h : Leads record start lengths stop) : start ≤ stop := by
  induction h with
  | here => exact Nat.le_refl _
  | step _ _ ih => omega

theorem length_attributesAt (record : Bytes) (offset : Nat) (lengths : List Nat) :
    (attributesAt record offset lengths).value.length = lengths.length := by
  induction lengths generalizing offset with
  | nil => rfl
  | cons length rest ih => exact congrArg (· + 1) (ih _)

/-! ## Reading along the walk -/

/-- The walk reads a declared attribute from its own bytes and goes on behind it. -/
theorem attributesFrom_of_declares (h : Declares record offset length) :
    attributesFrom offset (record.drop offset) =
      (Attribute.decodeWhole (record.part offset length)).cons
        (attributesFrom (offset + length) (record.drop (offset + length))) := by
  have hsize : 16 ≤ length := h.header_le
  have hinside := h.inside
  have hdecode : Attribute.decode (record.part offset length) =
      (Attribute.decodeWhole (record.part offset length)).map some :=
    Attribute.decode_of_size_le (by rw [Bytes.length_part hinside]; exact h.header_le)
  have hne : record.drop offset ≠ [] := by
    rw [Ne, List.drop_eq_nil_iff]
    omega
  have hlong : ¬ record.length - offset < length := by omega
  rw [attributesFrom, if_neg hne, Bytes.u32?_drop, Nat.add_zero,
    Bytes.u32?_eq_some (by omega)]
  simp only [Bytes.u32_drop, h.length_eq, List.length_drop, List.drop_drop]
  rw [if_neg h.code_ne, if_neg (Nat.not_lt.mpr h.header_le), ← Bytes.part, hdecode, if_neg hlong]
  rfl

theorem attributesFrom_of_endsAt (h : EndsAt record offset) :
    attributesFrom offset (record.drop offset) = .clean [] := by
  rw [attributesFrom, Bytes.u32?_drop, Nat.add_zero, h]
  simp

theorem attributesFrom_of_length_le (h : record.length ≤ offset) :
    attributesFrom offset (record.drop offset) = .clean [] := by
  rw [attributesFrom, if_pos (List.drop_eq_nil_iff.mpr h)]

/-- Reading a record is walking along the declared lengths, with each attribute decoded on the way. -/
theorem attributesFrom_of_leads (h : Leads record start lengths stop) :
    attributesFrom start (record.drop start) =
      (attributesAt record start lengths).append (attributesFrom stop (record.drop stop)) := by
  induction h with
  | here => rw [attributesAt, Noted.clean_append]
  | step declares _ ih => rw [attributesFrom_of_declares declares, ih, attributesAt, Noted.cons_append]

/-! ## Records that carry data -/

def headerOf (raw : Buffer) : RecordHeader := RecordHeader.decode (raw.window 0 RecordHeader.size)

def fixupOf (raw : Buffer) : Except Fixup.Fault Buffer :=
  Fixup.restore (raw.slice 0 size) (headerOf raw).arrayOffset.toNat (headerOf raw).arrayCount.toNat

/-- The bytes that are walked: those of the record once its sectors are restored, or as they stand if
that is not possible. -/
def settledBytes (raw : Buffer) : Bytes := (Fixup.settled (raw.slice 0 size) (fixupOf raw)).toList

def fixupFault? (raw : Buffer) : Option Fixup.Fault :=
  match fixupOf raw with
  | .ok _ => none
  | .error fault => some fault

def attributesStart (raw : Buffer) : Nat := (headerOf raw).attributesOffset.toNat

/-- The attributes of a raw record, with the notes on them. -/
def walked (raw : Buffer) : Noted (List Attribute) :=
  attributesFrom (attributesStart raw) ((settledBytes raw).drop (attributesStart raw))

theorem length_settledBytes_le (raw : Buffer) : (settledBytes raw).length ≤ size := by
  rw [settledBytes, Buffer.length_toList, fixupOf, Fixup.size_settled, Buffer.size_slice]
  omega

/-- A record without sector protection is walked as it stands. -/
theorem fixupOf_of_unprotected {raw : Buffer} (h : (headerOf raw).arrayCount.toNat < 2) :
    fixupOf raw = .ok (raw.slice 0 size) := if_pos h

theorem settledBytes_ofList_of_unprotected {bytes : Bytes}
    (h : (headerOf (.ofList bytes)).arrayCount.toNat < 2) (hsize : bytes.length ≤ size) :
    settledBytes (.ofList bytes) = bytes := by
  rw [settledBytes, fixupOf_of_unprotected h, Fixup.settled, Buffer.toList_slice, List.drop_zero,
    Buffer.toList_ofList, List.take_of_length_le hsize]

theorem fixupFault?_of_unprotected {raw : Buffer} (h : (headerOf raw).arrayCount.toNat < 2) :
    fixupFault? raw = none := by
  rw [fixupFault?, fixupOf_of_unprotected h]

theorem headerOf_ofList (bytes : Bytes) :
    headerOf (.ofList bytes) = RecordHeader.decode (bytes.take RecordHeader.size) := by
  rw [headerOf, Buffer.window_eq, Buffer.toList_ofList, List.drop_zero]

theorem header_parse (id : UInt64) (raw : Buffer) : (parse id raw).header = headerOf raw := by
  simp only [parse]
  split <;> rfl

/-- What is read from a record that carries data. -/
theorem parse_of_file (id : UInt64) {raw : Buffer}
    (h : (headerOf raw).signature = RecordHeader.fileSignature) :
    parse id raw = { blank id (headerOf raw) with
      attributes := (walked raw).value
      warnings := ((fixupFault? raw).toList.map fun fault => Warning.corruption id fault.message) ++
        (walked raw).notes.map (Warning.ofNote id) } := by
  have hvalid : (blank id (headerOf raw)).isValid = true := beq_iff_eq.mpr h
  have hwindow : ((settledBytes raw).drop (attributesStart raw)).take size =
      (settledBytes raw).drop (attributesStart raw) := by
    have hle := length_settledBytes_le raw
    apply List.take_of_length_le
    rw [List.length_drop]
    omega
  have hattributes : attributesFrom (attributesStart raw)
      ((Fixup.settled (raw.slice 0 size) (fixupOf raw)).window (attributesStart raw) size) =
        walked raw := by
    rw [Buffer.window_eq, walked, ← hwindow, settledBytes]
  have htorn : (match fixupOf raw with
      | .ok _ => []
      | .error fault => [Warning.corruption id fault.message]) =
        (fixupFault? raw).toList.map fun fault => Warning.corruption id fault.message := by
    rw [fixupFault?]
    cases fixupOf raw <;> rfl
  rw [← htorn, ← hattributes, parse]
  exact if_pos hvalid

/-- Without the signature only the header is read. -/
theorem parse_of_foreign (id : UInt64) {raw : Buffer}
    (h : (headerOf raw).signature ≠ RecordHeader.fileSignature) :
    parse id raw = blank id (headerOf raw) := by
  have hinvalid : ¬ (blank id (headerOf raw)).isValid = true :=
    fun hvalid => h (beq_iff_eq.mp hvalid)
  rw [parse]
  exact if_neg hinvalid

end Record

end Ntfs
