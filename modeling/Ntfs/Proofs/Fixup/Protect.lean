import Ntfs.Fixup
import Ntfs.Proofs.Bytes.Layout

/-!
# Protecting a structure

Protection saves the last two bytes of each sector in the update sequence array and puts the number in
their place.  `restore_protect` says that undoing it brings every byte back that the array does not take.
The array must be inside the structure and clear of the sector ends, or it would be written over itself.
-/

namespace Ntfs

open Bytes

namespace Buffer

theorem byte_set (b : Buffer) (position i : Nat) (value : UInt8) :
    (b.set position value).byte i = if i = position ∧ i < b.size then value else b.byte i := by
  rw [byte_eq, byte_eq, toList_set, List.getD_eq_getElem?_getD, List.getD_eq_getElem?_getD,
    List.getElem?_set]
  by_cases hat : position = i
  · subst hat
    by_cases hlt : position < b.size
    · simp [hlt]
    · simp [hlt]
  · rw [if_neg hat, if_neg fun h => hat h.1.symm]

end Buffer

namespace Fixup

/-- How many entries of the array are used, the number included. -/
def entries (length count : Nat) : Nat := (sectors length count).length + 1

def entryBytes (pair : UInt8 × UInt8) : Bytes := [pair.1, pair.2]

/-- What protection writes: the number at the front of the array, the end of each sector into its entry,
and the number over it. -/
def marks (buf : Buffer) (array count : Nat) (number : UInt8 × UInt8) : List Placed :=
  ⟨array, entryBytes number⟩ ::
    ((sectors buf.size count).map (fun sector =>
        ⟨array + 2 * sector, entryBytes (pairAt buf (tail sector))⟩) ++
      (sectors buf.size count).map fun sector => ⟨tail sector, entryBytes number⟩)

/-- Protect a structure, with an array of `count` entries at `array`.  Fewer than two entries protect
nothing. -/
def protect (buf : Buffer) (array count : Nat) (number : UInt8 × UInt8) : Buffer :=
  if count < 2 then buf else .ofList (buf.toList.writeAll (marks buf array count number))

/-- The array lies inside the structure, and its entries do not reach into the end of a sector. -/
structure HasRoom (length array count : Nat) : Prop where
  inside : array + 2 * count ≤ length
  clear : ∀ sector ∈ sectors length count,
    array + 2 * entries length count ≤ tail sector ∨ tail sector + 2 ≤ array

/-! ## Sectors -/

section Sectors

variable {length array count sector other : Nat}

theorem mem_sectors_iff :
    sector ∈ sectors length count ↔ 1 ≤ sector ∧ sector < entries length count := by
  rw [entries, sectors, List.mem_range'_1, List.length_range', Nat.add_comm 1]

theorem entries_le (h : 2 ≤ count) : entries length count ≤ count := by
  rw [entries, sectors, List.length_range']
  omega

theorem tail_add_two_le (h : sector ∈ sectors length count) : tail sector + 2 ≤ length := by
  rw [sectors, List.mem_range'_1] at h
  have hmul : length / sectorSize * sectorSize ≤ length := Nat.div_mul_le_self _ _
  have hle : sector ≤ length / sectorSize := by omega
  have hscaled := Nat.mul_le_mul_right sectorSize hle
  have hpositive := Nat.mul_le_mul_right sectorSize h.1
  rw [tail]
  simp only [sectorSize] at *
  omega

theorem tail_add_two_le_of_lt (h : sector < other) : tail sector + 2 ≤ tail other := by
  simp only [tail, sectorSize]
  omega

theorem pairwise_sectors (length count : Nat) : (sectors length count).Pairwise (· < ·) :=
  List.pairwise_lt_range'

/-- The entries that are used are all clear of all sector ends. -/
theorem HasRoom.entry_clear (h : HasRoom length array count) (hsector : sector < entries length count)
    (hother : other ∈ sectors length count) :
    array + 2 * sector + 2 ≤ tail other ∨ tail other + 2 ≤ array + 2 * sector := by
  have hclear := h.clear other hother
  omega

end Sectors

/-! ## What protection writes -/

section Marks

variable {buf : Buffer} {array count : Nat}

theorem covers_marks (h : HasRoom buf.size array count) (hcount : 2 ≤ count)
    (number : UInt8 × UInt8) :
    ∀ p ∈ marks buf array count number, buf.toList.Covers p.offset p.bytes.length := by
  have hentries : entries buf.size count ≤ count := entries_le hcount
  have hinside := h.inside
  intro p hp
  apply covers_of_le
  rw [Buffer.length_toList]
  simp only [marks, List.mem_cons, List.mem_append, List.mem_map] at hp
  obtain rfl | ⟨sector, hsector, rfl⟩ | ⟨sector, hsector, rfl⟩ := hp
  · show array + 2 ≤ buf.size
    omega
  · have hlt := (mem_sectors_iff.mp hsector).2
    show array + 2 * sector + 2 ≤ buf.size
    omega
  · exact tail_add_two_le hsector

/-- What protection writes does not overlap, if there is room for the array. -/
theorem apart_marks (h : HasRoom buf.size array count) (number : UInt8 × UInt8) :
    (marks buf array count number).Pairwise Placed.Apart := by
  have hentries : 0 < entries buf.size count := Nat.succ_pos _
  have hends : ∀ sector, sector < entries buf.size count → ∀ other ∈ sectors buf.size count,
      ∀ a b, Placed.Apart ⟨array + 2 * sector, entryBytes a⟩ ⟨tail other, entryBytes b⟩ := by
    intro sector hsector other hother a b
    obtain hbefore | hafter := h.entry_clear hsector hother
    · exact Placed.apart_of_le hbefore
    · exact (Placed.apart_of_le hafter).symm
  refine .cons ?_ (List.pairwise_append.mpr ⟨?_, ?_, ?_⟩)
  · intro p hp
    simp only [List.mem_append, List.mem_map] at hp
    obtain ⟨sector, hsector, rfl⟩ | ⟨sector, hsector, rfl⟩ := hp
    · have hpositive := (mem_sectors_iff.mp hsector).1
      apply Placed.apart_of_le
      show array + 2 ≤ array + 2 * sector
      omega
    · exact hends 0 hentries sector hsector _ _
  · refine List.pairwise_map.mpr ((pairwise_sectors _ _).imp fun {s t} hlt => ?_)
    apply Placed.apart_of_le
    show array + 2 * s + 2 ≤ array + 2 * t
    omega
  · refine List.pairwise_map.mpr ((pairwise_sectors _ _).imp fun {s t} hlt => ?_)
    exact Placed.apart_of_le (tail_add_two_le_of_lt hlt)
  · intro p hp q hq
    simp only [List.mem_map] at hp hq
    obtain ⟨sector, hsector, rfl⟩ := hp
    obtain ⟨other, hother, rfl⟩ := hq
    exact hends sector (mem_sectors_iff.mp hsector).2 other hother _ _

theorem pairAt_writeAll {b : Bytes} {ps : List Placed} {position : Nat} {pair : UInt8 × UInt8}
    (hcovers : ∀ p ∈ ps, b.Covers p.offset p.bytes.length) (hapart : ps.Pairwise Placed.Apart)
    (hp : ⟨position, entryBytes pair⟩ ∈ ps) :
    pairAt (.ofList (b.writeAll ps)) position = pair := by
  have hbyte : ∀ k, k < 2 → (Buffer.ofList (b.writeAll ps)).byte (position + k) =
      (entryBytes pair)[k]?.getD 0 := by
    intro k hk
    rw [Buffer.byte_eq, Buffer.toList_ofList, List.getD_eq_getElem?_getD,
      getElem?_writeAll_of_mem hcovers hapart hp
        ⟨Nat.le_add_right _ _, Nat.add_lt_add_left hk _⟩, Nat.add_sub_cancel_left]
  exact Prod.ext (hbyte 0 (by decide)) (hbyte 1 (by decide))

end Marks

/-! ## What restoring changes -/

section Restoring

variable {buf : Buffer} {array sector i : Nat} {all : List Nat}

theorem byte_restoreSector_of_free (h : i < tail sector ∨ tail sector + 2 ≤ i) :
    (restoreSector array buf sector).byte i = buf.byte i := by
  simp only [restoreSector, copyByte, Buffer.byte_set]
  rw [if_neg (by omega), if_neg (by omega)]

/-- Restoring a sector copies its entry, if the entry is clear of the end of the sector. -/
theorem pairAt_restoreSector (hinside : tail sector + 2 ≤ buf.size)
    (hclear : array + 2 * sector + 2 ≤ tail sector ∨ tail sector + 2 ≤ array + 2 * sector) :
    pairAt (restoreSector array buf sector) (tail sector) = pairAt buf (array + 2 * sector) := by
  have hlow : (restoreSector array buf sector).byte (tail sector) =
      buf.byte (array + 2 * sector) := by
    simp only [restoreSector, copyByte, Buffer.byte_set]
    rw [if_neg (by omega), if_pos ⟨trivial, by omega⟩]
  have hhigh : (restoreSector array buf sector).byte (tail sector + 1) =
      buf.byte (array + 2 * sector + 1) := by
    simp only [restoreSector, copyByte, Buffer.byte_set, Buffer.size_set]
    rw [if_pos ⟨trivial, by omega⟩, if_neg (by omega)]
  exact Prod.ext hlow hhigh

theorem byte_foldl_restoreSector_of_free
    (h : ∀ sector ∈ all, i < tail sector ∨ tail sector + 2 ≤ i) :
    (all.foldl (restoreSector array) buf).byte i = buf.byte i := by
  induction all generalizing buf with
  | nil => rfl
  | cons s rest ih =>
      rw [List.foldl_cons, ih fun t ht => h t (List.mem_cons_of_mem _ ht),
        byte_restoreSector_of_free (h s List.mem_cons_self)]

/-- Every sector gets back the bytes of its entry, if the entries lie clear of the ends of sectors. -/
theorem pairAt_foldl_restoreSector (hsorted : all.Pairwise (· < ·))
    (hinside : ∀ t ∈ all, tail t + 2 ≤ buf.size)
    (hclear : ∀ s ∈ all, ∀ t ∈ all,
      array + 2 * s + 2 ≤ tail t ∨ tail t + 2 ≤ array + 2 * s) (hsector : sector ∈ all) :
    pairAt (all.foldl (restoreSector array) buf) (tail sector) =
      pairAt buf (array + 2 * sector) := by
  induction all generalizing buf with
  | nil => cases hsector
  | cons s rest ih =>
      obtain ⟨hfirst, hrest⟩ := List.pairwise_cons.mp hsorted
      rw [List.foldl_cons]
      rcases List.mem_cons.mp hsector with rfl | hsector
      · -- The sectors that follow end later, so they leave this one as it is.
        have hlater : ∀ k, k < 2 → (rest.foldl (restoreSector array)
            (restoreSector array buf sector)).byte (tail sector + k) =
              (restoreSector array buf sector).byte (tail sector + k) := by
          intro k hk
          apply byte_foldl_restoreSector_of_free
          intro t ht
          have hle := tail_add_two_le_of_lt (hfirst t ht)
          omega
        rw [← pairAt_restoreSector (hinside sector List.mem_cons_self)
          (hclear sector List.mem_cons_self sector List.mem_cons_self)]
        exact Prod.ext (hlater 0 (by decide)) (hlater 1 (by decide))
      · have hkept : ∀ k, k < 2 → (restoreSector array buf s).byte (array + 2 * sector + k) =
            buf.byte (array + 2 * sector + k) := by
          intro k hk
          apply byte_restoreSector_of_free
          have hs := hclear sector (List.mem_cons_of_mem _ hsector) s List.mem_cons_self
          omega
        rw [ih hrest]
        · exact Prod.ext (hkept 0 (by decide)) (hkept 1 (by decide))
        · intro t ht
          rw [size_restoreSector]
          exact hinside t (List.mem_cons_of_mem _ ht)
        · exact fun t ht u hu =>
            hclear t (List.mem_cons_of_mem _ ht) u (List.mem_cons_of_mem _ hu)
        · exact hsector

end Restoring

/-! ## There and back -/

section Protecting

variable {buf : Buffer} {array count : Nat} (h : HasRoom buf.size array count) (hcount : 2 ≤ count)
  (number : UInt8 × UInt8)

include hcount

theorem protect_of_two_le : protect buf array count number =
    .ofList (buf.toList.writeAll (marks buf array count number)) :=
  if_neg (Nat.not_lt.mpr hcount)

include h

theorem pairAt_protect_array : pairAt (protect buf array count number) array = number := by
  rw [protect_of_two_le hcount]
  exact pairAt_writeAll (covers_marks h hcount number) (apart_marks h number) List.mem_cons_self

theorem pairAt_protect_tail {sector : Nat} (hsector : sector ∈ sectors buf.size count) :
    pairAt (protect buf array count number) (tail sector) = number := by
  rw [protect_of_two_le hcount]
  exact pairAt_writeAll (covers_marks h hcount number) (apart_marks h number)
    (List.mem_cons_of_mem _ (List.mem_append_right _ (List.mem_map_of_mem hsector)))

theorem pairAt_protect_entry {sector : Nat} (hsector : sector ∈ sectors buf.size count) :
    pairAt (protect buf array count number) (array + 2 * sector) = pairAt buf (tail sector) := by
  rw [protect_of_two_le hcount]
  exact pairAt_writeAll (covers_marks h hcount number) (apart_marks h number)
    (List.mem_cons_of_mem _ (List.mem_append_left _ (List.mem_map_of_mem hsector)))

/-- Protection changes nothing outside the array and the sector ends. -/
theorem byte_protect_of_free {i : Nat} (harray : i < array ∨ array + 2 * entries buf.size count ≤ i)
    (hfree : ∀ sector ∈ sectors buf.size count, i < tail sector ∨ tail sector + 2 ≤ i) :
    (protect buf array count number).byte i = buf.byte i := by
  have hunmarked : ∀ p ∈ marks buf array count number, ¬ p.Takes i := by
    intro p hp htakes
    simp only [marks, List.mem_cons, List.mem_append, List.mem_map] at hp
    obtain rfl | ⟨sector, hsector, rfl⟩ | ⟨sector, hsector, rfl⟩ := hp
    · have hin : array ≤ i ∧ i < array + 2 := htakes
      have hpositive : 0 < entries buf.size count := Nat.succ_pos _
      omega
    · have hin : array + 2 * sector ≤ i ∧ i < array + 2 * sector + 2 := htakes
      have hlt := (mem_sectors_iff.mp hsector).2
      omega
    · have hin : tail sector ≤ i ∧ i < tail sector + 2 := htakes
      have hout := hfree sector hsector
      omega
  rw [protect_of_two_le hcount, Buffer.byte_eq, Buffer.toList_ofList, Buffer.byte_eq,
    List.getD_eq_getElem?_getD, List.getD_eq_getElem?_getD,
    getElem?_writeAll_of_free (covers_marks h hcount number) hunmarked]

/-- In a protected structure no sector is torn. -/
theorem firstTorn_protect :
    firstTorn (protect buf array count number) array (sectors buf.size count) = none := by
  rw [firstTorn, List.find?_eq_none]
  intro sector hsector
  rw [pairAt_protect_tail h hcount number hsector, pairAt_protect_array h hcount number]
  simp

end Protecting

variable {buf : Buffer} {array count : Nat}

theorem size_protect (h : 2 ≤ count → HasRoom buf.size array count) (number : UInt8 × UInt8) :
    (protect buf array count number).size = buf.size := by
  by_cases hcount : count < 2
  · rw [protect, if_pos hcount]
  · have hcount' := Nat.not_lt.mp hcount
    rw [protect_of_two_le hcount', ← Buffer.length_toList, Buffer.toList_ofList,
      length_writeAll (covers_marks (h hcount') hcount' number), Buffer.length_toList]

/-- Undoing the protection of a structure brings every byte back that the array does not take. -/
theorem restore_protect (h : 2 ≤ count → HasRoom buf.size array count) (number : UInt8 × UInt8) :
    ∃ restored, restore (protect buf array count number) array count = .ok restored ∧
      restored.size = buf.size ∧
      ∀ i, (2 ≤ count → i < array ∨ array + 2 * entries buf.size count ≤ i) →
        restored.byte i = buf.byte i := by
  have hsize := size_protect h number
  by_cases hcount : count < 2
  · refine ⟨buf, ?_, rfl, fun _ _ => rfl⟩
    rw [protect, if_pos hcount, restore, if_pos hcount]
  have hcount' := Nat.not_lt.mp hcount
  have hroom := h hcount'
  refine ⟨(sectors buf.size count).foldl (restoreSector array) (protect buf array count number),
    ?_, ?_, ?_⟩
  · rw [restore, if_neg hcount, hsize, if_neg (Nat.not_lt.mpr hroom.inside)]
    simp only [firstTorn_protect hroom hcount' number]
  · rw [size_foldl_restoreSector, hsize]
  · intro i hi
    by_cases htail : ∃ sector ∈ sectors buf.size count, tail sector ≤ i ∧ i < tail sector + 2
    · obtain ⟨sector, hsector, hle, hlt⟩ := htail
      have hpair : pairAt ((sectors buf.size count).foldl (restoreSector array)
          (protect buf array count number)) (tail sector) = pairAt buf (tail sector) := by
        rw [pairAt_foldl_restoreSector (pairwise_sectors _ _) _ _ hsector,
          pairAt_protect_entry hroom hcount' number hsector]
        · exact fun t ht => by rw [hsize]; exact tail_add_two_le ht
        · exact fun s hs t ht => hroom.entry_clear (mem_sectors_iff.mp hs).2 ht
      obtain rfl | rfl : i = tail sector ∨ i = tail sector + 1 := by omega
      · exact congrArg Prod.fst hpair
      · exact congrArg Prod.snd hpair
    · have hfree : ∀ sector ∈ sectors buf.size count, i < tail sector ∨ tail sector + 2 ≤ i := by
        intro sector hsector
        by_cases hlt : i < tail sector
        · exact .inl hlt
        · exact .inr (Nat.not_lt.mp fun hin => htail ⟨sector, hsector, Nat.not_lt.mp hlt, hin⟩)
      rw [byte_foldl_restoreSector_of_free hfree, byte_protect_of_free hroom hcount' number (hi hcount') hfree]

end Fixup

end Ntfs
