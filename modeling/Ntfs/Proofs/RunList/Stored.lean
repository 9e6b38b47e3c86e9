import Ntfs.RunList

/-!
# Stored runs

A run is stored as a control byte with the widths of two fields, its length in clusters, and, unless
it is sparse, the signed distance of its first cluster from that of the last run that has one.  This
file states the layout on its own, as what may be written down; a field may be wider than its number
needs, so one run has several stored forms.  What was written is found again: a number in its field
(`toIntLE_ofIntLE`), and a stored run in front of any bytes (`encode_append_inj`).
-/

namespace Ntfs

namespace Bytes

theorem capacity_pos (width : Nat) : 0 < capacity width := by
  induction width with
  | zero => decide
  | succ width ih =>
      rw [capacity]
      omega

theorem capacity_le_of_le_eight {width : Nat} (hwidth : width ≤ 8) :
    capacity width ≤ 0x10000000000000000 := by
  have hall : ∀ small : Fin 9, capacity small ≤ 0x10000000000000000 := by decide
  exact hall ⟨width, by omega⟩

/-- The field of `width` bytes that holds a number in two's complement, least significant byte
first. -/
def ofIntLE (width : Nat) (n : Int) : Bytes := ofNatLE width (n % capacity width).toNat

@[simp]
theorem length_ofIntLE (width : Nat) (n : Int) : (ofIntLE width n).length = width :=
  length_ofNatLE width _

end Bytes

namespace RunList

open Bytes

/-- A number in the range of a field is read back from its two's complement. -/
theorem toIntLE_ofIntLE {width : Nat} {n : Int} (hlower : -(capacity width : Int) ≤ 2 * n)
    (hupper : 2 * n < capacity width) : toIntLE (ofIntLE width n) = n := by
  have hpos : (0 : Int) < capacity width := by exact_mod_cast capacity_pos width
  have hnonneg : 0 ≤ n % capacity width := Int.emod_nonneg n (Int.ne_of_gt hpos)
  have hlt : n % capacity width < capacity width := Int.emod_lt_of_pos n hpos
  have hfield : (toNatLE (ofIntLE width n) : Int) = n % capacity width := by
    rw [ofIntLE, toNatLE_ofNatLE (by omega), Int.toNat_of_nonneg hnonneg]
  simp only [toIntLE, hfield, length_ofIntLE]
  by_cases hn : 0 ≤ n
  · rw [Int.emod_eq_of_lt hn (by omega), if_pos hupper]
  · have hwrap : n % capacity width = n + capacity width := by
      rw [← Int.add_emod_right, Int.emod_eq_of_lt (by omega) (by omega)]
    rw [hwrap, if_neg (by omega)]
    omega

theorem ofIntLE_toIntLE (field : Bytes) : ofIntLE field.length (toIntLE field) = field := by
  have hlt : (toNatLE field : Int) < capacity field.length := by exact_mod_cast toNatLE_lt field
  have hmod : toIntLE field % capacity field.length = toNatLE field := by
    simp only [toIntLE]
    split
    · exact Int.emod_eq_of_lt (by omega) hlt
    · rw [Int.sub_emod_right, Int.emod_eq_of_lt (by omega) hlt]
  rw [ofIntLE, hmod, Int.toNat_natCast, ofNatLE_toNatLE]

/-- Half of the numbers of a field are negative. -/
theorem toIntLE_bounds (field : Bytes) :
    -(capacity field.length : Int) ≤ 2 * toIntLE field ∧
      2 * toIntLE field < capacity field.length := by
  have hlt : (toNatLE field : Int) < capacity field.length := by exact_mod_cast toNatLE_lt field
  simp only [toIntLE]
  split <;> omega

end RunList

/-- A length as stored: one to eight bytes that hold at least one cluster. -/
@[ext]
structure LengthField where
  width : Nat
  value : Nat
  width_pos : 0 < width
  width_le : width ≤ 8
  value_pos : 0 < value
  value_lt : value < Bytes.capacity width

/-- An offset as stored: one to eight bytes in two's complement. -/
@[ext]
structure OffsetField where
  width : Nat
  delta : Int
  width_pos : 0 < width
  width_le : width ≤ 8
  lower : -(Bytes.capacity width : Int) ≤ 2 * delta
  upper : 2 * delta < Bytes.capacity width

/-- A run as stored; a sparse run has no offset. -/
@[ext]
structure StoredRun where
  length : LengthField
  offset : Option OffsetField

namespace StoredRun

open Bytes RunList

/-- The bytes of an offset field; none for a sparse run. -/
def offsetBytes (s : StoredRun) : Bytes :=
  match s.offset with
  | none => []
  | some o => ofIntLE o.width o.delta

def offsetWidth (s : StoredRun) : Nat := (s.offset.map OffsetField.width).getD 0

/-- How far the run moves the last cluster. -/
def delta (s : StoredRun) : Int := (s.offset.map OffsetField.delta).getD 0

/-- The width of the length field stands in the low half, that of the offset field in the high
half. -/
def control (s : StoredRun) : UInt8 := UInt8.ofNat (16 * s.offsetWidth + s.length.width)

def encode (s : StoredRun) : Bytes :=
  s.control :: (ofNatLE s.length.width s.length.value ++ s.offsetBytes)

/-- The run that is stored, when the last cluster is `lcn`. -/
def toRun (lcn : Int) (s : StoredRun) : Run where
  length := UInt64.ofNat s.length.value
  delta := Int64.ofInt s.delta
  lcn := s.offset.map fun o => UInt64.ofNat (lcn + o.delta).toNat

theorem offsetWidth_le (s : StoredRun) : s.offsetWidth ≤ 8 := by
  unfold offsetWidth
  cases s.offset with
  | none => simp
  | some o => exact o.width_le

@[simp]
theorem length_offsetBytes (s : StoredRun) : s.offsetBytes.length = s.offsetWidth := by
  unfold offsetBytes offsetWidth
  cases s.offset with
  | none => rfl
  | some o => exact length_ofIntLE o.width o.delta

theorem toNat_control (s : StoredRun) :
    s.control.toNat = 16 * s.offsetWidth + s.length.width := by
  have hoffset := s.offsetWidth_le
  have hlength := s.length.width_le
  rw [control, UInt8.toNat_ofNat']
  omega

theorem control_ne_zero (s : StoredRun) : s.control ≠ 0 := by
  intro hzero
  have hpos := s.length.width_pos
  have hnat := s.toNat_control
  rw [hzero, UInt8.toNat_zero] at hnat
  omega

theorem ofNatLE_length_inj {left right : LengthField} (hwidth : left.width = right.width)
    (hfield : ofNatLE left.width left.value = ofNatLE right.width right.value) :
    left = right := by
  have hvalue := congrArg toNatLE hfield
  rw [toNatLE_ofNatLE left.value_lt, toNatLE_ofNatLE right.value_lt] at hvalue
  exact LengthField.ext hwidth hvalue

theorem ofIntLE_offset_inj {left right : OffsetField} (hwidth : left.width = right.width)
    (hfield : ofIntLE left.width left.delta = ofIntLE right.width right.delta) :
    left = right := by
  have hdelta := congrArg toIntLE hfield
  rw [toIntLE_ofIntLE left.lower left.upper, toIntLE_ofIntLE right.lower right.upper] at hdelta
  exact OffsetField.ext hwidth hdelta

theorem offset_eq_of_bytes_eq {left right : StoredRun}
    (hwidth : left.offsetWidth = right.offsetWidth)
    (hbytes : left.offsetBytes = right.offsetBytes) : left.offset = right.offset := by
  unfold offsetWidth at hwidth
  unfold offsetBytes at hbytes
  cases hleft : left.offset with
  | none =>
      cases hright : right.offset with
      | none => rfl
      | some o =>
          have hpos := o.width_pos
          simp only [hleft, hright, Option.map_none, Option.getD_none, Option.map_some,
            Option.getD_some] at hwidth
          omega
  | some o =>
      cases hright : right.offset with
      | none =>
          have hpos := o.width_pos
          simp only [hleft, hright, Option.map_none, Option.getD_none, Option.map_some,
            Option.getD_some] at hwidth
          omega
      | some o' =>
          simp only [hleft, hright, Option.map_some, Option.getD_some] at hwidth hbytes
          rw [ofIntLE_offset_inj hwidth hbytes]

/-- The control byte says how long the fields are, so a stored run is known from any bytes that
start with it. -/
theorem encode_append_inj {left right : StoredRun} {after after' : Bytes}
    (heq : left.encode ++ after = right.encode ++ after') : left = right ∧ after = after' := by
  simp only [encode, List.cons_append, List.cons.injEq, List.append_assoc] at heq
  obtain ⟨hcontrol, hfields⟩ := heq
  have hnat := congrArg UInt8.toNat hcontrol
  rw [toNat_control, toNat_control] at hnat
  have hleft := left.length.width_le
  have hright := right.length.width_le
  have hwidth : left.length.width = right.length.width := by omega
  have hoffsetWidth : left.offsetWidth = right.offsetWidth := by omega
  obtain ⟨hlength, hrest⟩ := List.append_inj hfields (by simpa using hwidth)
  obtain ⟨hoffset, hafter⟩ := List.append_inj hrest (by simpa using hoffsetWidth)
  exact ⟨StoredRun.ext (ofNatLE_length_inj hwidth hlength)
    (offset_eq_of_bytes_eq hoffsetWidth hoffset), hafter⟩

/-! ## The run that is stored -/

@[simp]
theorem toNat_length_toRun (lcn : Int) (s : StoredRun) :
    (s.toRun lcn).length.toNat = s.length.value := by
  have hcapacity := capacity_le_of_le_eight s.length.width_le
  have hvalue := s.length.value_lt
  rw [toRun, UInt64.toNat_ofNat', Nat.mod_eq_of_lt (by omega)]

@[simp]
theorem toInt_delta_toRun (lcn : Int) (s : StoredRun) : (s.toRun lcn).delta.toInt = s.delta := by
  unfold toRun delta
  cases s.offset with
  | none => rfl
  | some o =>
      have hcapacity := capacity_le_of_le_eight o.width_le
      have hlower := o.lower
      have hupper := o.upper
      simp only [Option.map_some, Option.getD_some]
      exact Int64.toInt_ofInt_of_le (by omega) (by omega)

theorem toNat_lcn_toRun {lcn : Int} {s : StoredRun} {o : OffsetField} (hoffset : s.offset = some o)
    (hnonneg : 0 ≤ lcn + o.delta) (hlt : lcn + o.delta < 0x8000000000000000) :
    ∃ first, (s.toRun lcn).lcn = some first ∧ (first.toNat : Int) = lcn + o.delta := by
  refine ⟨UInt64.ofNat (lcn + o.delta).toNat, by rw [toRun, hoffset, Option.map_some], ?_⟩
  rw [UInt64.toNat_ofNat', Nat.mod_eq_of_lt (by omega)]
  omega

end StoredRun

end Ntfs
