import Ntfs.Fixup
import Ntfs.Proofs.Machine.Basic

/-!
# Sector protection on the machine

The number is compared with the end of each sector, and then the bytes kept in the array are put back.
Sectors are counted by the length of the structure, so their ends lie inside it, and by the entries of
the array, which lies inside it too.
-/

namespace Ntfs.Machine

open Work

def tailOf (sector : Nat) : Work Nat := do sub (← mul sector Fixup.sectorSize) 2

def firstTorn (buf number : Bytes) : List Nat → Work (Option Nat)
  | [] => pure none
  | sector :: rest => do
    let start ← tailOf sector
    let found ← slice buf start (← add start 2)
    if found = number then firstTorn buf number rest else pure (some sector)

def restoreSector (buf : Bytes) (array sector : Nat) : Work Bytes := do
  let target ← tailOf sector
  let source ← add array (← mul 2 sector)
  let buf ← put buf target (← index buf source)
  put buf (← add target 1) (← index buf (← add source 1))

def restoreSectors (buf : Bytes) (array : Nat) : List Nat → Work Bytes
  | [] => pure buf
  | sector :: rest => do restoreSectors (← restoreSector buf array sector) array rest

def restore (buf : Bytes) (array count : Nat) : Work (Except Fixup.Fault Bytes) :=
  if count < 2 then pure (.ok buf)
  else do
    if buf.length < (← add array (← mul 2 count)) then pure (.error .arrayOutside)
    else
      let low ← index buf array
      let high ← index buf (← add array 1)
      let past := min count (← add (buf.length / Fixup.sectorSize) 1)
      let sectors := List.range' 1 (past - 1)
      match ← firstTorn buf [low, high] sectors with
      | some sector => pure (.error (.torn sector))
      | none => return .ok (← restoreSectors buf array sectors)

/-- A sector that lies inside a structure and has an entry in an array inside it. -/
structure SectorInside (size array sector : Nat) : Prop where
  pos : 0 < sector
  inside : sector * Fixup.sectorSize ≤ size
  entry_inside : array + 2 * sector + 2 ≤ size

variable {b : Buffer} {array count sector : Nat}

theorem tailOf_eq (hpos : 0 < sector) (hinside : sector * Fixup.sectorSize ≤ maxSize) :
    tailOf sector = done (.clean (Fixup.tail sector)) := by
  have hmax : maxSize ≤ maxWord := by decide
  have htwo : 2 ≤ sector * Fixup.sectorSize := by
    simp only [Fixup.sectorSize]
    omega
  rw [tailOf, mul_of_le (Nat.le_trans hinside hmax), bind_eq_andThen, done_clean_andThen,
    sub_of_le htwo]
  rfl

theorem u8_toList (b : Buffer) (position : Nat) : Bytes.u8 b.toList position = b.byte position :=
  (Buffer.byte_eq b position).symm

theorem slice_pair {position : Nat} (h : position + 2 ≤ b.size) :
    slice b.toList position (position + 2) =
      done (.clean [b.byte position, b.byte (position + 1)]) := by
  rw [← Buffer.length_toList] at h
  have hget (i : Nat) (hi : i < b.toList.length) : b.toList[i] = b.byte i := by
    rw [Buffer.byte_eq, List.getD_eq_getElem?_getD, List.getElem?_eq_getElem hi]
    rfl
  rw [slice_of_le (Nat.le_add_right ..) h, Nat.add_sub_cancel_left,
    List.drop_eq_getElem_cons (show position < b.toList.length by omega),
    List.drop_eq_getElem_cons (show position + 1 < b.toList.length by omega), hget, hget]
  rfl

theorem firstTorn_eq (hsize : b.size ≤ maxSize) {sectors : List Nat}
    (hsectors : ∀ s ∈ sectors, SectorInside b.size array s) :
    firstTorn b.toList [b.byte array, b.byte (array + 1)] sectors =
      done (.clean (Fixup.firstTorn b array sectors)) := by
  induction sectors with
  | nil => rfl
  | cons s rest ih =>
      obtain ⟨hs, hrest⟩ := List.forall_mem_cons.mp hsectors
      have hpos := hs.pos
      have hinside := hs.inside
      have hmax : maxSize ≤ maxWord := by decide
      have htail : Fixup.tail s + 2 ≤ b.size := by
        simp only [Fixup.tail, Fixup.sectorSize] at hinside ⊢
        omega
      have hword : Fixup.tail s + 2 ≤ maxWord := by omega
      have hstep : firstTorn b.toList [b.byte array, b.byte (array + 1)] (s :: rest) =
          if [b.byte (Fixup.tail s), b.byte (Fixup.tail s + 1)] = [b.byte array, b.byte (array + 1)]
          then firstTorn b.toList [b.byte array, b.byte (array + 1)] rest
          else done (.clean (some s)) := by
        simp only [firstTorn, tailOf_eq hpos (Nat.le_trans hinside hsize), add_of_le hword,
          slice_pair htail, bind_eq_andThen, done_clean_andThen, pure_eq_done]
      rw [hstep, ih hrest]
      simp only [Fixup.firstTorn, List.find?_cons]
      by_cases hpair : Fixup.pairAt b (Fixup.tail s) = Fixup.pairAt b array
      · have hbytes := Prod.mk.inj hpair
        rw [if_pos (by rw [hbytes.1, hbytes.2]), bne_eq_false_iff_eq.mpr hpair]
      · rw [if_neg, bne_iff_ne.mpr hpair]
        rintro heq
        obtain ⟨hlow, hhigh⟩ := List.cons_eq_cons.mp heq
        exact hpair (Prod.ext hlow (List.cons_eq_cons.mp hhigh).1)

/-- Putting the bytes of a sector back stays inside the structure. -/
theorem restoreSector_eq (hsize : b.size ≤ maxSize) (h : SectorInside b.size array sector) :
    restoreSector b.toList array sector =
      done (.clean (Fixup.restoreSector array b sector).toList) := by
  have hpos := h.pos
  have hinside := h.inside
  have hentry := h.entry_inside
  have hmax : maxSize ≤ maxWord := by decide
  have htail : Fixup.tail sector + 2 ≤ b.size := by
    simp only [Fixup.tail, Fixup.sectorSize] at hinside ⊢
    omega
  have hlength (c : Buffer) (hc : c.size = b.size) : c.toList.length = b.size := by
    rw [Buffer.length_toList, hc]
  have hfirst := hlength b rfl
  have hsecond := hlength (b.set (Fixup.tail sector) (b.byte (array + 2 * sector)))
    (Buffer.size_set ..)
  rw [Buffer.toList_set] at hsecond
  simp only [restoreSector, tailOf_eq hpos (Nat.le_trans hinside hsize), bind_eq_andThen,
    done_clean_andThen]
  rw [mul_of_le (by omega), done_clean_andThen, add_of_le (by omega), done_clean_andThen,
    index_of_lt (by omega), done_clean_andThen, put_of_lt (by omega), done_clean_andThen,
    add_of_le (by omega), done_clean_andThen, add_of_le (by omega), done_clean_andThen,
    u8_toList, index_of_lt (by omega), done_clean_andThen, put_of_lt (by omega), ← Buffer.toList_set,
    u8_toList, ← Buffer.toList_set]
  rfl

theorem restoreSectors_eq (hsize : b.size ≤ maxSize) {sectors : List Nat}
    (hsectors : ∀ s ∈ sectors, SectorInside b.size array s) :
    restoreSectors b.toList array sectors =
      done (.clean (sectors.foldl (Fixup.restoreSector array) b).toList) := by
  induction sectors generalizing b with
  | nil => rfl
  | cons s rest ih =>
      obtain ⟨hs, hrest⟩ := List.forall_mem_cons.mp hsectors
      have hsame : (Fixup.restoreSector array b s).size = b.size := Fixup.size_restoreSector array b s
      rw [restoreSectors, restoreSector_eq hsize hs, bind_eq_andThen, done_clean_andThen,
        ih (by rwa [hsame]) (by rwa [hsame])]
      rfl

theorem sectorInside_of_mem_sectors (harray : array + 2 * count ≤ b.size)
    (h : sector ∈ Fixup.sectors b.size count) : SectorInside b.size array sector := by
  rw [Fixup.sectors, List.mem_range'_1] at h
  have hdiv := Nat.div_mul_le_self b.size Fixup.sectorSize
  have hle : sector ≤ b.size / Fixup.sectorSize := by omega
  exact ⟨h.1, Nat.le_trans (Nat.mul_le_mul_right _ hle) hdiv, by omega⟩

/-- Undoing the protection of a structure on the machine does what it does in the library. -/
theorem restore_eq (hsize : b.size ≤ maxSize) (harray : array + 2 * count ≤ maxWord) :
    restore b.toList array count =
      done (.clean ((Fixup.restore b array count).map Buffer.toList)) := by
  have hmax : maxSize < maxWord := by decide
  rw [restore, Fixup.restore]
  by_cases hcount : count < 2
  · rw [if_pos hcount, if_pos hcount]
    rfl
  · rw [if_neg hcount, if_neg hcount, mul_of_le (by omega), bind_eq_andThen, done_clean_andThen,
      add_of_le harray, bind_eq_andThen, done_clean_andThen, Buffer.length_toList]
    by_cases hshort : b.size < array + 2 * count
    · rw [if_pos hshort, if_pos hshort]
      rfl
    · have hinside : ∀ s ∈ Fixup.sectors b.size count, SectorInside b.size array s := fun s hs =>
        sectorInside_of_mem_sectors (by omega) hs
      have hdiv := Nat.div_le_self b.size Fixup.sectorSize
      have hsectors : List.range' 1 (min count (b.size / Fixup.sectorSize + 1) - 1) =
          Fixup.sectors b.size count := rfl
      rw [if_neg hshort, if_neg hshort, index_of_lt (by rw [Buffer.length_toList]; omega),
        u8_toList]
      simp only [bind_eq_andThen, done_clean_andThen]
      rw [add_of_le (by omega), done_clean_andThen, index_of_lt (by rw [Buffer.length_toList]; omega),
        done_clean_andThen, add_of_le (by omega), done_clean_andThen, u8_toList, hsectors,
        firstTorn_eq hsize hinside, done_clean_andThen, restoreSectors_eq hsize hinside]
      cases Fixup.firstTorn b array (Fixup.sectors b.size count) <;> rfl

end Ntfs.Machine
