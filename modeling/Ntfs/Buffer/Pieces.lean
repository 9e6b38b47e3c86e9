import Ntfs.Buffer

/-!
# Joining and cutting buffers

`concat` joins buffers, and `toList_concat` says what the result holds; `pieces` cuts a buffer into
parts of one length.
-/

namespace Ntfs.Buffer

/-- Several buffers, one after the other, in storage that is made large enough at once. -/
def concat (buffers : List Buffer) : Buffer :=
  let total := buffers.foldl (fun sum b => sum + b.size) 0
  buffers.foldl (· ++ ·) ⟨ByteArray.emptyWithCapacity total⟩

/-- Cut into pieces of `length` bytes; the last piece holds what is left. -/
def pieces (b : Buffer) (length : Nat) : List Buffer :=
  (List.range ((b.size + length - 1) / length)).map fun index =>
    b.slice (index * length) ((index + 1) * length)

theorem toList_foldl_append (buffers : List Buffer) (front : Buffer) :
    (buffers.foldl (· ++ ·) front).toList = front.toList ++ (buffers.map toList).flatten := by
  induction buffers generalizing front with
  | nil => simp
  | cons b rest ih => simp [ih]

@[simp]
theorem toList_concat (buffers : List Buffer) :
    (concat buffers).toList = (buffers.map toList).flatten :=
  toList_foldl_append buffers empty

end Ntfs.Buffer
