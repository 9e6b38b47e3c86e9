import Ntfs.Buffer

/-!
# Sector protection

A structure of several sectors is protected against torn writes: the last two bytes of each
512-byte sector hold an update sequence number, and the bytes they displaced are kept in an array
inside the structure, which starts with that number.  `restore` puts them back, and changes nothing
unless every sector carries the number.
-/

namespace Ntfs.Fixup

def sectorSize : Nat := 512

/-- Why a structure cannot be restored. -/
inductive Fault where
  /-- The update sequence array does not lie inside the structure. -/
  | arrayOutside
  /-- A sector, counted from one, does not carry the number. -/
  | torn (sector : Nat)
  deriving DecidableEq, Repr

def Fault.message : Fault → String
  | .arrayOutside => "update sequence array outside the structure"
  | .torn sector => s!"update sequence mismatch at sector {sector}"

/-- Where the last two bytes of a sector stand; sectors count from one. -/
def tail (sector : Nat) : Nat := sector * sectorSize - 2

/-- The protected sectors: those with an entry in the array that lie inside the structure. -/
def sectors (length count : Nat) : List Nat :=
  List.range' 1 (min count (length / sectorSize + 1) - 1)

def pairAt (buf : Buffer) (position : Nat) : UInt8 × UInt8 :=
  (buf.byte position, buf.byte (position + 1))

def copyByte (buf : Buffer) (source target : Nat) : Buffer := buf.set target (buf.byte source)

/-- Put the displaced bytes of one sector back, the first before the second.  Where the array
overlaps a tail, a byte is taken from it as it stands by then: the byte a sector has just got back
may be the next one to be copied. -/
def restoreSector (array : Nat) (buf : Buffer) (sector : Nat) : Buffer :=
  let entry := array + 2 * sector
  copyByte (copyByte buf entry (tail sector)) (entry + 1) (tail sector + 1)

/-- The first sector that does not carry the number at `array`. -/
def firstTorn (buf : Buffer) (array : Nat) (sectors : List Nat) : Option Nat :=
  sectors.find? fun sector => pairAt buf (tail sector) != pairAt buf array

/-- Undo the protection of a structure whose update sequence array starts at `array` and has
`count` entries, the number included.  Fewer than two entries protect nothing. -/
def restore (buf : Buffer) (array count : Nat) : Except Fault Buffer :=
  if count < 2 then .ok buf
  else if buf.size < array + 2 * count then .error .arrayOutside
  else
    let protectedSectors := sectors buf.size count
    match firstTorn buf array protectedSectors with
    | some sector => .error (.torn sector)
    | none => .ok (protectedSectors.foldl (restoreSector array) buf)

/-- What is read on after an attempt to restore: a structure that cannot be restored is left as
it is. -/
def settled (buf : Buffer) : (outcome : Except Fault Buffer) → Buffer
  | .ok restored => restored
  | .error _ => buf

@[simp]
theorem size_restoreSector (array : Nat) (buf : Buffer) (sector : Nat) :
    (restoreSector array buf sector).size = buf.size := by
  simp [restoreSector, copyByte]

theorem size_foldl_restoreSector (array : Nat) (sectors : List Nat) (buf : Buffer) :
    (sectors.foldl (restoreSector array) buf).size = buf.size := by
  induction sectors generalizing buf with
  | nil => rfl
  | cons sector rest ih => rw [List.foldl_cons, ih, size_restoreSector]

/-- Restoring keeps the size. -/
theorem size_of_restore {buf restored : Buffer} {array count : Nat}
    (h : restore buf array count = .ok restored) : restored.size = buf.size := by
  unfold restore at h
  split at h
  · rw [Except.ok.inj h]
  · split at h
    · cases h
    · simp only at h
      split at h
      · cases h
      · rw [← Except.ok.inj h, size_foldl_restoreSector]

@[simp]
theorem size_settled (buf : Buffer) (array count : Nat) :
    (settled buf (restore buf array count)).size = buf.size := by
  cases h : restore buf array count with
  | error fault => rfl
  | ok restored => exact size_of_restore h

end Ntfs.Fixup
