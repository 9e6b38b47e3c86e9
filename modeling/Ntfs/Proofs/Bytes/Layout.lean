import Ntfs.Text.Utf16

/-!
# Layouts

A structure on disk is a stretch of bytes with fields at fixed places and arbitrary bytes between them.
It is laid out by writing each field over the bytes at its place.  `part_writeAll` is what the readers of
such structures rest on: fields that share no position are all found again.
-/

namespace Ntfs.Bytes

/-! ## Parts -/

def part (b : Bytes) (offset length : Nat) : Bytes := (b.drop offset).take length

/-- All positions of a range exist. -/
def Covers (b : Bytes) (offset length : Nat) : Prop :=
  ∀ position, offset ≤ position → position < offset + length → position < b.length

theorem covers_of_le {b : Bytes} {offset length : Nat} (h : offset + length ≤ b.length) :
    b.Covers offset length := fun _ _ hlt => Nat.lt_of_lt_of_le hlt h

theorem length_part {b : Bytes} {offset length : Nat} (h : offset + length ≤ b.length) :
    (b.part offset length).length = length := by
  rw [part, List.length_take, List.length_drop]
  omega

theorem drop_eq_part_append (b : Bytes) (offset length : Nat) :
    b.drop offset = b.part offset length ++ b.drop (offset + length) := by
  rw [part, ← List.drop_drop, List.take_append_drop]

/-- What follows does not matter to a part that lies inside. -/
theorem part_append {b : Bytes} {offset length : Nat} (h : offset + length ≤ b.length) (after : Bytes) :
    (b ++ after).part offset length = b.part offset length := by
  rw [part, List.drop_append_of_le_length (by omega),
    List.take_append_of_le_length (by rw [List.length_drop]; omega), part]

/-- A slice exists if all of its bytes do, and is made up of them. -/
theorem slice?_eq_some_iff {b stored : Bytes} {offset length : Nat} :
    slice? b offset length = some stored ↔
      offset + length ≤ b.length ∧ b.part offset length = stored := by
  unfold slice? part
  split
  · rename_i hshort
    rw [shorterThan_iff] at hshort
    exact ⟨fun h => (nomatch h), fun h => absurd h.1 (Nat.not_le.mpr hshort)⟩
  · rename_i hlong
    rw [shorterThan_iff, Nat.not_lt] at hlong
    exact ⟨fun h => ⟨hlong, Option.some.inj h⟩, fun h => congrArg some h.2⟩

theorem take_of_take_eq {a b : Bytes} {m n : Nat} (hfront : a.take n = b.take n) (h : m ≤ n) :
    a.take m = b.take m := by
  have htake : ∀ c : Bytes, c.take m = (c.take n).take m := by
    intro c
    rw [List.take_take, Nat.min_eq_left h]
  rw [htake a, hfront, ← htake b]

theorem part_of_take_eq {a b : Bytes} {offset length n : Nat} (hfront : a.take n = b.take n)
    (h : offset + length ≤ n) : a.part offset length = b.part offset length := by
  have hpart : ∀ c : Bytes, c.part offset length = (c.take (offset + length)).drop offset := by
    intro c
    rw [part, List.drop_take, Nat.add_sub_cancel_left]
  rw [hpart a, take_of_take_eq hfront h, ← hpart b]

/-! ## Fields -/

theorem word?_drop (b : Bytes) (start offset width : Nat) :
    word? (b.drop start) offset width = word? b (start + offset) width := by
  simp only [word?, List.drop_drop]

theorem u32?_drop (b : Bytes) (start offset : Nat) :
    u32? (b.drop start) offset = u32? b (start + offset) := by
  rw [u32?, word?_drop, u32?]

theorem u32_drop (b : Bytes) (start offset : Nat) :
    u32 (b.drop start) offset = u32 b (start + offset) := by
  rw [u32, u32?_drop, u32]

/-- A field that lies inside is there. -/
theorem u32?_eq_some {b : Bytes} {offset : Nat} (h : offset + 4 ≤ b.length) :
    u32? b offset = some (u32 b offset) := by
  have hword : word? b offset 4 ≠ none := by
    rw [Ne, word?_eq_none_iff (by decide)]
    omega
  obtain ⟨n, hn⟩ := Option.ne_none_iff_exists'.mp hword
  simp [u32, u32?, hn]

/-- A field depends only on the bytes up to its end. -/
theorem word?_of_take_eq {a b : Bytes} {offset width n : Nat} (hfront : a.take n = b.take n)
    (h : offset + width ≤ n) : word? a offset width = word? b offset width := by
  rw [← word?_take a h, hfront, word?_take b h]

theorem u8_of_take_eq {a b : Bytes} {offset n : Nat} (hfront : a.take n = b.take n) (h : offset < n) :
    u8 a offset = u8 b offset := by
  rw [← u8_take a h, hfront, u8_take b h]

theorem u32_of_take_eq {a b : Bytes} {offset n : Nat} (hfront : a.take n = b.take n)
    (h : offset + 4 ≤ n) : u32 a offset = u32 b offset := by
  rw [u32, u32, u32?, u32?, word?_of_take_eq hfront h]

theorem u16_take (b : Bytes) {offset n : Nat} (h : offset + 2 ≤ n) :
    u16 (b.take n) offset = u16 b offset := by
  simp only [u16, u16?, word?_take b h]

theorem u32_take (b : Bytes) {offset n : Nat} (h : offset + 4 ≤ n) :
    u32 (b.take n) offset = u32 b offset := by
  simp only [u32, u32?, word?_take b h]

theorem u64_take (b : Bytes) {offset n : Nat} (h : offset + 8 ≤ n) :
    u64 (b.take n) offset = u64 b offset := by
  simp only [u64, u64?, word?_take b h]

/-- The number stored in a part is the field there. -/
theorem word?_of_part {b : Bytes} {offset width n : Nat} (h : b.part offset width = ofNatLE width n)
    (hn : n < capacity width) : word? b offset width = some n := by
  rw [part] at h
  simp only [word?, h, length_ofNatLE, if_pos, toNatLE_ofNatLE hn]

theorem u8_of_part {b : Bytes} {offset : Nat} {v : UInt8} (h : b.part offset 1 = [v]) :
    u8 b offset = v := by
  have hdrop : (b.drop offset)[0]? = some v := by
    rw [← List.getElem?_take_of_lt Nat.one_pos, ← part, h]
    rfl
  rw [List.getElem?_drop, Nat.add_zero] at hdrop
  rw [u8, List.getD_eq_getElem?_getD, hdrop, Option.getD_some]

theorem u16_of_part {b : Bytes} {offset : Nat} {v : UInt16}
    (h : b.part offset 2 = ofNatLE 2 v.toNat) : u16 b offset = v := by
  rw [u16, u16?, word?_of_part h v.toNat_lt, Option.map_some, UInt16.ofNat_toNat, Option.getD_some]

theorem u32_of_part {b : Bytes} {offset : Nat} {v : UInt32}
    (h : b.part offset 4 = ofNatLE 4 v.toNat) : u32 b offset = v := by
  rw [u32, u32?, word?_of_part h v.toNat_lt, Option.map_some, UInt32.ofNat_toNat, Option.getD_some]

theorem u64_of_part {b : Bytes} {offset : Nat} {v : UInt64}
    (h : b.part offset 8 = ofNatLE 8 v.toNat) : u64 b offset = v := by
  rw [u64, u64?, word?_of_part h v.toNat_lt, Option.map_some, UInt64.ofNat_toNat, Option.getD_some]

/-- The part that a field is read from stores its number. -/
theorem part_eq_of_u64 {b : Bytes} {offset : Nat} {v : UInt64} (hinside : offset + 8 ≤ b.length)
    (h : u64 b offset = v) : b.part offset 8 = ofNatLE 8 v.toNat := by
  have hlength : (b.part offset 8).length = 8 := length_part hinside
  have hword : word? b offset 8 = some (toNatLE (b.part offset 8)) := if_pos hlength
  have hlt : toNatLE (b.part offset 8) < UInt64.size := by
    have hcapacity := toNatLE_lt (b.part offset 8)
    rwa [hlength] at hcapacity
  have hstored := ofNatLE_toNatLE (b.part offset 8)
  rw [hlength] at hstored
  rw [← h, u64, u64?, hword, Option.map_some, Option.getD_some, UInt64.toNat_ofNat_of_lt' hlt, hstored]


/-! ## Writing -/

/-- Bytes that stand at a given place. -/
structure Placed where
  offset : Nat
  bytes : Bytes

namespace Placed

/-- The positions that are written. -/
def Takes (p : Placed) (position : Nat) : Prop :=
  p.offset ≤ position ∧ position < p.offset + p.bytes.length

/-- No position is written twice. -/
def Apart (p q : Placed) : Prop := ∀ position, p.Takes position → ¬ q.Takes position

theorem apart_of_le {p q : Placed} (h : p.offset + p.bytes.length ≤ q.offset) : p.Apart q :=
  fun _ hp hq => Nat.not_lt.mpr (Nat.le_trans h hq.1) hp.2

theorem Apart.symm {p q : Placed} (h : p.Apart q) : q.Apart p := fun position hq hp => h position hp hq

end Placed

def write (b : Bytes) (p : Placed) : Bytes :=
  b.take p.offset ++ p.bytes ++ b.drop (p.offset + p.bytes.length)

def writeAll (b : Bytes) (ps : List Placed) : Bytes := ps.foldl write b

variable {b : Bytes} {p : Placed} {ps : List Placed} {position : Nat}

/-- Nothing is written, or all of it fits. -/
theorem bytes_eq_nil_or_le (h : b.Covers p.offset p.bytes.length) :
    p.bytes = [] ∨ p.offset + p.bytes.length ≤ b.length := by
  by_cases hempty : p.bytes = []
  · exact .inl hempty
  · have hpos : 0 < p.bytes.length := List.length_pos_iff.mpr hempty
    have hlast := h (p.offset + p.bytes.length - 1) (by omega) (by omega)
    exact .inr (by omega)

theorem write_of_bytes_eq_nil (h : p.bytes = []) : b.write p = b := by
  rw [write, h, List.append_nil, List.length_nil, Nat.add_zero, List.take_append_drop]

theorem length_write (h : b.Covers p.offset p.bytes.length) : (b.write p).length = b.length := by
  obtain hempty | hle := bytes_eq_nil_or_le h
  · rw [write_of_bytes_eq_nil hempty]
  · rw [write, List.length_append, List.length_append, List.length_take, List.length_drop]
    omega

/-- A byte that is written over is the one of the part written there. -/
theorem getElem?_write_of_takes (h : b.Covers p.offset p.bytes.length) (htakes : p.Takes position) :
    (b.write p)[position]? = p.bytes[position - p.offset]? := by
  have hlt := h position htakes.1 htakes.2
  have hfront : (b.take p.offset).length = p.offset := by
    rw [List.length_take]
    exact Nat.min_eq_left (Nat.le_trans htakes.1 (Nat.le_of_lt hlt))
  have hle := htakes.1
  have hend := htakes.2
  rw [write, List.append_assoc, List.getElem?_append_right (by omega), hfront,
    List.getElem?_append_left (by omega)]

/-- A byte that is not written over stays as it is. -/
theorem getElem?_write_of_not_takes (h : b.Covers p.offset p.bytes.length)
    (hfree : ¬ p.Takes position) : (b.write p)[position]? = b[position]? := by
  obtain hempty | hle := bytes_eq_nil_or_le h
  · rw [write_of_bytes_eq_nil hempty]
  · have hfront : (b.take p.offset).length = p.offset := by
      rw [List.length_take]
      omega
    rw [write, List.append_assoc]
    by_cases hlt : position < p.offset
    · rw [List.getElem?_append_left (by omega), List.getElem?_take_of_lt hlt]
    · have hpast : p.offset + p.bytes.length ≤ position :=
        Nat.not_lt.mp fun hinside => hfree ⟨Nat.not_lt.mp hlt, hinside⟩
      rw [List.getElem?_append_right (by omega), List.getElem?_append_right (by omega),
        List.getElem?_drop, hfront]
      congr 1
      omega

theorem length_writeAll (h : ∀ p ∈ ps, b.Covers p.offset p.bytes.length) :
    (b.writeAll ps).length = b.length := by
  induction ps generalizing b with
  | nil => rfl
  | cons q rest ih =>
      have hq := h q List.mem_cons_self
      have hsize := length_write hq
      rw [writeAll, List.foldl_cons, ← writeAll, ih, hsize]
      intro p hp position hle hlt
      rw [hsize]
      exact h p (List.mem_cons_of_mem _ hp) position hle hlt

/-- What no field takes stays as it is. -/
theorem getElem?_writeAll_of_free (h : ∀ p ∈ ps, b.Covers p.offset p.bytes.length)
    (hfree : ∀ p ∈ ps, ¬ p.Takes position) : (b.writeAll ps)[position]? = b[position]? := by
  induction ps generalizing b with
  | nil => rfl
  | cons q rest ih =>
      have hq := h q List.mem_cons_self
      rw [writeAll, List.foldl_cons, ← writeAll, ih,
        getElem?_write_of_not_takes hq (hfree q List.mem_cons_self)]
      · intro p hp position hle hlt
        rw [length_write hq]
        exact h p (List.mem_cons_of_mem _ hp) position hle hlt
      · exact fun p hp => hfree p (List.mem_cons_of_mem _ hp)

/-- Of parts that do not overlap, each is found where it was written, whatever is written after it. -/
theorem getElem?_writeAll_of_mem (h : ∀ p ∈ ps, b.Covers p.offset p.bytes.length)
    (hapart : ps.Pairwise Placed.Apart) (hp : p ∈ ps) (htakes : p.Takes position) :
    (b.writeAll ps)[position]? = p.bytes[position - p.offset]? := by
  induction ps generalizing b with
  | nil => cases hp
  | cons q rest ih =>
      have hq := h q List.mem_cons_self
      obtain ⟨hfirst, hrest⟩ := List.pairwise_cons.mp hapart
      have hcovers : ∀ p ∈ rest, (b.write q).Covers p.offset p.bytes.length := by
        intro p hp position hle hlt
        rw [length_write hq]
        exact h p (List.mem_cons_of_mem _ hp) position hle hlt
      rw [writeAll, List.foldl_cons, ← writeAll]
      rcases List.mem_cons.mp hp with rfl | hp
      · rw [getElem?_writeAll_of_free hcovers fun r hr => hfirst r hr position htakes,
          getElem?_write_of_takes hq htakes]
      · exact ih hcovers hrest hp

/-- Fields that share no position are all found again. -/
theorem part_writeAll (h : ∀ p ∈ ps, b.Covers p.offset p.bytes.length)
    (hapart : ps.Pairwise Placed.Apart) (hp : p ∈ ps) :
    (b.writeAll ps).part p.offset p.bytes.length = p.bytes := by
  apply List.ext_getElem?
  intro i
  rw [part, List.getElem?_take, List.getElem?_drop]
  split
  · rename_i hlt
    rw [getElem?_writeAll_of_mem h hapart hp ⟨Nat.le_add_right _ _, by omega⟩,
      Nat.add_sub_cancel_left]
  · rename_i hpast
    exact (List.getElem?_eq_none (Nat.not_lt.mp hpast)).symm

/-! ## A head and what stands behind it -/

/-- Nothing is written, or it is written between two positions. -/
def Placed.Between (p : Placed) (start stop : Nat) : Prop :=
  p.bytes = [] ∨ start ≤ p.offset ∧ p.offset + p.bytes.length ≤ stop

/-- What ends before the first position is apart from what is written from there on. -/
theorem Placed.Between.apart {p q : Placed} {start stop : Nat} (h : q.Between start stop)
    (hle : p.offset + p.bytes.length ≤ start) : p.Apart q := by
  obtain hempty | ⟨hbehind, -⟩ := h
  · intro position _ htakes
    have hlt := htakes.2
    rw [hempty] at hlt
    exact Nat.not_lt.mpr htakes.1 hlt
  · exact Placed.apart_of_le (Nat.le_trans hle hbehind)

theorem Placed.Between.mono {p : Placed} {start earlier stop : Nat} (h : p.Between start stop)
    (hle : earlier ≤ start) : p.Between earlier stop :=
  h.imp_right fun hinside => ⟨Nat.le_trans hle hinside.1, hinside.2⟩

/-- A name is written where there is room for its units. -/
theorem Placed.between_store {us : List UInt16} {offset start stop : Nat}
    (h : us = [] ∨ start ≤ offset ∧ offset + 2 * us.length ≤ stop) :
    Placed.Between ⟨offset, Utf16.store us⟩ start stop := by
  rw [Placed.Between, Utf16.length_store]
  exact h.imp_left fun hnone => by rw [hnone]; rfl

/-- A head stands at the front of a stretch of bytes, and fields behind it that share no position. -/
structure Headed (b head : Bytes) (ps : List Placed) : Prop where
  head_le : head.length ≤ b.length
  between : ∀ p ∈ ps, p.Between head.length b.length
  apart : ps.Pairwise Placed.Apart

namespace Headed

variable {head : Bytes}

theorem covers (h : Headed b head ps) :
    ∀ p ∈ (⟨0, head⟩ :: ps : List Placed), b.Covers p.offset p.bytes.length := by
  intro p hp
  obtain rfl | hp := List.mem_cons.mp hp
  · exact covers_of_le (by rw [Nat.zero_add]; exact h.head_le)
  · obtain hempty | ⟨-, hinside⟩ := h.between p hp
    · rw [hempty]
      exact fun position hle hlt => absurd hle (Nat.not_le.mpr hlt)
    · exact covers_of_le hinside

theorem pairwise (h : Headed b head ps) : (⟨0, head⟩ :: ps : List Placed).Pairwise Placed.Apart :=
  .cons (fun p hp => (h.between p hp).apart (Nat.le_of_eq (Nat.zero_add _))) h.apart

theorem length_writeAll (h : Headed b head ps) : (b.writeAll (⟨0, head⟩ :: ps)).length = b.length :=
  Bytes.length_writeAll h.covers

theorem part_of_mem (h : Headed b head ps) (hp : p ∈ ps) :
    (b.writeAll (⟨0, head⟩ :: ps)).part p.offset p.bytes.length = p.bytes :=
  part_writeAll h.covers h.pairwise (List.mem_cons_of_mem _ hp)

theorem take_writeAll (h : Headed b head ps) :
    (b.writeAll (⟨0, head⟩ :: ps)).take head.length = head := by
  have hpart := part_writeAll h.covers h.pairwise (p := ⟨0, head⟩) List.mem_cons_self
  rwa [part, List.drop_zero] at hpart

/-- The fields of the head are found where it stands. -/
theorem part_head (h : Headed b head ps) {offset width : Nat} (hle : offset + width ≤ head.length) :
    (b.writeAll (⟨0, head⟩ :: ps)).part offset width = head.part offset width := by
  apply part_of_take_eq (n := head.length) _ hle
  rw [h.take_writeAll, List.take_length]

end Headed

end Ntfs.Bytes
