import Ntfs.Buffer.Pieces
import Ntfs.Proofs.Bytes.Layout

/-!
# Windows on what stands from a place on

A walk over a buffer reads windows that start at the place it has come to.  What it sees there depends
only on the bytes from that place on, so a reader of one item is looked at with those bytes alone, and
nothing in front of it matters.  Items of one length need no walk: each is found by its number, and
`pieces_concat` says that cutting gives back what was joined.
-/

namespace Ntfs.Buffer

variable {b : Buffer} {offset start length : Nat} {rest item after : Bytes}

theorem size_ofList (raw : Bytes) : (Buffer.ofList raw).size = raw.length := by
  rw [← Buffer.length_toList, Buffer.toList_ofList]

/-- A buffer of given bytes without the loop that stores them. -/
theorem ofList_eq_mk (raw : Bytes) : Buffer.ofList raw = ⟨⟨⟨raw⟩⟩⟩ :=
  Buffer.ext (by rw [Buffer.toList_ofList, Buffer.toList_eq])

theorem window_of_drop (h : b.toList.drop offset = rest) (start length : Nat) :
    b.window (offset + start) length = (rest.drop start).take length := by
  rw [Buffer.window_eq, ← List.drop_drop, h]

theorem window_zero_of_drop (h : b.toList.drop offset = rest) (length : Nat) :
    b.window offset length = rest.take length := by
  rw [Buffer.window_eq, h]

/-- A window inside the item that stands at a place shows a part of this item. -/
theorem window_of_item (h : b.toList.drop offset = item ++ after) (hle : start + length ≤ item.length) :
    b.window (offset + start) length = item.part start length := by
  rw [window_of_drop h, ← Bytes.part, Bytes.part_append hle]

theorem window_front_of_item (h : b.toList.drop offset = item ++ after) (hle : length ≤ item.length) :
    b.window offset length = item.take length := by
  rw [window_zero_of_drop h, List.take_append_of_le_length hle]

/-- A part of a window is a window. -/
theorem part_window (b : Buffer) (offset : Nat) {size : Nat} (hle : start + length ≤ size) :
    (b.window offset size).part start length = b.window (offset + start) length := by
  rw [window_eq, window_eq, Bytes.part, List.drop_take, List.take_take, Nat.min_eq_left (by omega),
    List.drop_drop]

/-! ## Buffers that agree -/

section Agree

variable {a b : Buffer} {n : Nat}

theorem getElem?_toList_congr (hsize : a.size = b.size) {i : Nat} (h : a.byte i = b.byte i) :
    a.toList[i]? = b.toList[i]? := by
  by_cases hlt : i < a.size
  · rw [getElem?_toList hlt, getElem?_toList (hsize ▸ hlt), h]
  · rw [List.getElem?_eq_none (by rw [length_toList]; exact Nat.not_lt.mp hlt),
      List.getElem?_eq_none (by rw [length_toList, ← hsize]; exact Nat.not_lt.mp hlt)]

theorem take_toList_congr (hsize : a.size = b.size) (h : ∀ i, i < n → a.byte i = b.byte i) :
    a.toList.take n = b.toList.take n := by
  apply List.ext_getElem?
  intro i
  rw [List.getElem?_take, List.getElem?_take]
  split
  · rename_i hlt
    exact getElem?_toList_congr hsize (h i hlt)
  · rfl

theorem drop_toList_congr (hsize : a.size = b.size) (h : ∀ i, n ≤ i → a.byte i = b.byte i) :
    a.toList.drop n = b.toList.drop n := by
  apply List.ext_getElem?
  intro i
  rw [List.getElem?_drop, List.getElem?_drop]
  exact getElem?_toList_congr hsize (h _ (Nat.le_add_right _ _))

/-- A window shows only the bytes it spans. -/
theorem window_congr (hsize : a.size = b.size)
    (h : ∀ i, start ≤ i → i < start + length → a.byte i = b.byte i) :
    a.window start length = b.window start length := by
  apply List.ext_getElem?
  intro i
  rw [window_eq, window_eq, List.getElem?_take, List.getElem?_take]
  split
  · rename_i hlt
    rw [List.getElem?_drop, List.getElem?_drop]
    exact getElem?_toList_congr hsize (h _ (Nat.le_add_right _ _) (Nat.add_lt_add_left hlt start))
  · rfl

/-- A part of a window shows only its own bytes. -/
theorem part_window_congr {offset : Nat} (hsize : a.size = b.size) (hle : start + length ≤ n)
    (h : ∀ i, offset + start ≤ i → i < offset + start + length → a.byte i = b.byte i) :
    (a.window offset n).part start length = (b.window offset n).part start length := by
  rw [part_window a offset hle, part_window b offset hle, window_congr hsize h]

theorem byte_slice (stop i : Nat) : (b.slice 0 stop).byte i = if i < stop then b.byte i else 0 := by
  rw [byte_eq, toList_slice, List.drop_zero, List.getD_eq_getElem?_getD, List.getElem?_take]
  split
  · rw [byte_eq, List.getD_eq_getElem?_getD]
  · rfl

theorem slice_of_size_le (h : b.size ≤ n) : b.slice 0 n = b := by
  apply Buffer.ext
  rw [toList_slice, List.drop_zero, List.take_of_length_le (by rwa [length_toList])]

end Agree

/-! ## Items of one length -/

section Items

variable {items : List Bytes} {width : Nat}

theorem length_flatten (hwidth : ∀ i ∈ items, i.length = width) :
    items.flatten.length = items.length * width := by
  rw [List.length_flatten, List.map_congr_left hwidth, List.map_const', List.sum_replicate_nat]

theorem take_drop_flatten (hwidth : ∀ i ∈ items, i.length = width) {index : Nat}
    (h : index < items.length) : (items.flatten.drop (index * width)).take width = items[index] := by
  induction items generalizing index with
  | nil => cases h
  | cons i rest ih =>
      obtain ⟨hi, hrest⟩ := List.forall_mem_cons.mp hwidth
      cases index with
      | zero => simp [← hi]
      | succ index =>
          rw [List.flatten_cons, Nat.succ_mul, Nat.add_comm, ← hi, List.drop_length_add_append, hi]
          exact ih hrest (Nat.lt_of_succ_lt_succ h)

/-- Items of one width are cut out again from where they stand one after the other. -/
theorem map_slice_flatten (hwidth : ∀ i ∈ items, i.length = width) :
    (List.range items.length).map (fun index =>
      (ofList items.flatten).slice (index * width) ((index + 1) * width)) = items.map ofList := by
  apply List.ext_getElem
  · rw [List.length_map, List.length_map, List.length_range]
  · intro index _ hindex
    rw [List.length_map] at hindex
    apply Buffer.ext
    rw [List.getElem_map, List.getElem_map, List.getElem_range, toList_slice, toList_ofList,
      toList_ofList, List.drop_take, Nat.succ_mul, Nat.add_sub_cancel_left]
    exact take_drop_flatten hwidth hindex

end Items

/-- What was joined from buffers of one size is cut into these again. -/
theorem pieces_concat {buffers : List Buffer} {size : Nat} (hpos : 0 < size)
    (hsize : ∀ b ∈ buffers, b.size = size) : (concat buffers).pieces size = buffers := by
  have hwidth : ∀ item ∈ buffers.map toList, item.length = size :=
    List.forall_mem_map.mpr fun b hb => (length_toList b).trans (hsize b hb)
  have hjoined : concat buffers = ofList (buffers.map toList).flatten :=
    ext ((toList_concat buffers).trans (toList_ofList _).symm)
  have hcount : (buffers.length * size + size - 1) / size = buffers.length :=
    Nat.div_eq_of_lt_le (by omega) (by rw [Nat.succ_mul]; omega)
  have hslices := map_slice_flatten hwidth
  rw [List.length_map, List.map_map] at hslices
  rw [pieces, hjoined, size_ofList, length_flatten hwidth, List.length_map, hcount, hslices]
  exact (List.map_congr_left fun b _ => ofList_toList b).trans (List.map_id buffers)

/-- The first of the joined buffers is seen through every window that does not leave it. -/
theorem window_concat_cons {first : Buffer} (rest : List Buffer) (hle : start + length ≤ first.size) :
    (concat (first :: rest)).window start length = first.window start length := by
  have hdrop : (concat (first :: rest)).toList.drop 0 =
      first.toList ++ (rest.map toList).flatten := by
    rw [List.drop_zero, toList_concat, List.map_cons, List.flatten_cons]
  have hitem := window_of_item hdrop (by rwa [length_toList])
  rwa [Nat.zero_add, Bytes.part, ← window_eq] at hitem

end Ntfs.Buffer
