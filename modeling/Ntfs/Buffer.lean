import Ntfs.Bytes

/-!
# Buffers

Content is moved in buffers: byte strings in one piece of storage, where a part is read without
walking to it.  `toList` is the byte string that a buffer holds, and `window` a part of it.  Every
operation is described by `toList`, and buffers that hold the same bytes are equal.
-/

namespace Ntfs

/-- A byte string in one piece of storage. -/
structure Buffer where
  data : ByteArray

namespace Buffer

def size (b : Buffer) : Nat := b.data.size

/-- The byte at a position; bytes past the end read as zero. -/
def byte (b : Buffer) (position : Nat) : UInt8 :=
  if h : position < b.data.size then b.data[position] else 0

/-- The `count` bytes from `start` on, in front of others. -/
def gather (b : Buffer) (start : Nat) : (count : Nat) → Bytes → Bytes
  | 0, rest => rest
  | count + 1, rest => gather b start count (b.byte (start + count) :: rest)

/-- The bytes from `start` on, as far as they exist, but at most `length` of them. -/
def window (b : Buffer) (start length : Nat) : Bytes :=
  b.gather start (min length (b.size - start)) []

def toList (b : Buffer) : Bytes := b.window 0 b.size

instance : Repr Buffer where
  reprPrec b := reprPrec b.toList

def ofList (bytes : Bytes) : Buffer := ⟨bytes.toByteArray⟩

def empty : Buffer := ⟨ByteArray.empty⟩

/-- One buffer after another. -/
instance : Append Buffer where
  append a b := ⟨a.data ++ b.data⟩

/-- The bytes from one position up to another, as far as they exist. -/
def slice (b : Buffer) (start stop : Nat) : Buffer :=
  ⟨b.data.extract (min start b.size) (min stop b.size)⟩

/-- The buffer with another byte at a position; nothing changes past the end. -/
def set (b : Buffer) (position : Nat) (value : UInt8) : Buffer :=
  if h : position < b.data.size then ⟨b.data.set position value h⟩ else b

theorem gather_eq (b : Buffer) {start count : Nat} (h : start + count ≤ b.size) (rest : Bytes) :
    b.gather start count rest = (b.data.data.toList.drop start).take count ++ rest := by
  induction count generalizing rest with
  | zero => simp [gather]
  | succ count ih =>
    have hlt : count < (b.data.data.toList.drop start).length := by
      rw [List.length_drop]
      show count < b.size - start
      omega
    have hb : b.byte (start + count) = (b.data.data.toList.drop start)[count] := by
      have hsize : start + count < b.data.size := h
      rw [byte, dif_pos hsize, List.getElem_drop]
      rfl
    rw [gather, ih (by omega), hb, ← List.take_append_getElem hlt, List.append_assoc,
      List.singleton_append]

theorem window_eq_data (b : Buffer) (start length : Nat) :
    b.window start length = (b.data.data.toList.drop start).take length := by
  have hlen : (b.data.data.toList.drop start).length = b.size - start := List.length_drop
  rw [window]
  by_cases h : start ≤ b.size
  · rw [gather_eq b (by omega), List.append_nil, List.take_eq_take_iff]
    omega
  · have hnil : b.data.data.toList.drop start = [] := List.drop_eq_nil_of_le (by
      show b.size ≤ start
      omega)
    rw [hnil, List.take_nil, show min length (b.size - start) = 0 by omega, gather]

theorem toList_eq (b : Buffer) : b.toList = b.data.data.toList := by
  rw [toList, window_eq_data, List.drop_zero]
  exact List.take_of_length_le (Nat.le_refl _)

/-- A window is a part of the bytes. -/
theorem window_eq (b : Buffer) (start length : Nat) :
    b.window start length = (b.toList.drop start).take length := by
  rw [toList_eq, window_eq_data]

@[simp]
theorem length_toList (b : Buffer) : b.toList.length = b.size := by
  simp [toList_eq, size]

@[simp]
theorem toList_ofList (bytes : Bytes) : (ofList bytes).toList = bytes := by
  simp [toList_eq, ofList]

@[ext]
theorem ext {a b : Buffer} (h : a.toList = b.toList) : a = b := by
  rw [toList_eq, toList_eq] at h
  obtain ⟨a⟩ := a
  obtain ⟨b⟩ := b
  have hdata : a = b := ByteArray.ext (Array.toList_inj.mp h)
  rw [hdata]

instance : DecidableEq Buffer := fun a b =>
  if h : a.toList = b.toList then .isTrue (ext h) else .isFalse fun e => h (congrArg toList e)

@[simp]
theorem ofList_toList (b : Buffer) : ofList b.toList = b := ext (toList_ofList _)

@[simp]
theorem toList_empty : empty.toList = [] := rfl

@[simp]
theorem toList_append (a b : Buffer) : (a ++ b).toList = a.toList ++ b.toList := by
  simp only [toList_eq]
  show (a.data ++ b.data).data.toList = _
  simp [ByteArray.data_append]

@[simp]
theorem toList_slice (b : Buffer) (start stop : Nat) :
    (b.slice start stop).toList = (b.toList.take stop).drop start := by
  have hlen : b.data.data.toList.length = b.size := rfl
  simp only [toList_eq, slice, ByteArray.data_extract, Array.toList_extract,
    List.extract_eq_take_drop, List.drop_take]
  apply List.ext_getElem
  · simp only [List.length_take, List.length_drop]
    omega
  · intro i hi _
    simp only [List.length_take, List.length_drop] at hi
    simp only [List.getElem_take, List.getElem_drop]
    congr 1
    omega

theorem byte_eq (b : Buffer) (position : Nat) : b.byte position = b.toList.getD position 0 := by
  rw [toList_eq, byte]
  split
  · rename_i h
    have hlt : position < b.data.data.toList.length := h
    rw [List.getD_eq_getElem?_getD, List.getElem?_eq_getElem hlt]
    rfl
  · rename_i h
    have hle : b.data.data.toList.length ≤ position := Nat.not_lt.mp h
    rw [List.getD_eq_getElem?_getD, List.getElem?_eq_none hle]
    rfl

theorem getElem?_toList {b : Buffer} {position : Nat} (h : position < b.size) :
    b.toList[position]? = some (b.byte position) := by
  rw [byte_eq, List.getD_eq_getElem?_getD, List.getElem?_eq_getElem (by rwa [length_toList])]
  rfl

@[simp]
theorem toList_set (b : Buffer) (position : Nat) (value : UInt8) :
    (b.set position value).toList = b.toList.set position value := by
  rw [set]
  split
  · simp [toList_eq, ByteArray.data_set]
  · rename_i h
    rw [List.set_eq_of_length_le]
    rw [length_toList]
    exact Nat.not_lt.mp h

@[simp]
theorem size_set (b : Buffer) (position : Nat) (value : UInt8) :
    (b.set position value).size = b.size := by
  rw [← length_toList, toList_set, List.length_set, length_toList]

@[simp]
theorem size_slice (b : Buffer) (start stop : Nat) :
    (b.slice start stop).size = min stop b.size - start := by
  rw [← length_toList, toList_slice, List.length_drop, List.length_take, length_toList]

end Buffer

end Ntfs
