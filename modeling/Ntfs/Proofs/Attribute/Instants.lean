import Ntfs.Attribute.Parse
import Ntfs.Proofs.Attribute.Json

/-!
# Every instant of an attribute was a file time

Instants come into an attribute only where four file times stand in its bytes.  So whatever the
bytes are, every instant that is decoded from them is a file time.
-/

namespace Ntfs

variable {t : Instant}

theorem Stamps.isFileTime_of_mem_ofBytes {raw : Bytes} {offset : Nat}
    (h : t ∈ (ofBytes raw offset).instants) : t.IsFileTime := by
  obtain ⟨time, htime, rfl⟩ := List.mem_filterMap.mp h
  simp only [ofBytes, List.mem_cons, List.not_mem_nil, or_false] at htime
  rcases htime with h | h | h | h <;> exact ⟨_, h.symm⟩

theorem StandardInformation.isFileTime_of_decode {raw : Bytes} {s : StandardInformation}
    (hs : (decode raw).value = some s) (h : t ∈ s.stamps.instants) : t.IsFileTime := by
  rw [decode] at hs
  split at hs
  · cases hs
  · cases hs
    exact Stamps.isFileTime_of_mem_ofBytes h

theorem FileName.isFileTime_of_decode {raw : Bytes} {f : FileName}
    (hf : (decode raw).value = some f) (h : t ∈ f.stamps.instants) : t.IsFileTime := by
  rw [decode] at hf
  split at hf
  · cases hf
  · cases hf
    exact Stamps.isFileTime_of_mem_ofBytes h

/-! ## Indexes -/

namespace IndexEntry

variable {fileNameKeys : Bool}

theorem isFileTime_of_decodeAt {area : Buffer} {offset : Nat} {header : Bytes}
    (h : t ∈ (decodeAt fileNameKeys area offset header).value.instants) : t.IsFileTime := by
  obtain ⟨f, hf, ht⟩ := List.mem_flatMap.mp h
  have hkey : (decodeKey fileNameKeys area offset header).value = some f := Option.mem_toList.mp hf
  rw [decodeKey] at hkey
  split at hkey
  · exact FileName.isFileTime_of_decode hkey ht
  · cases hkey

theorem isFileTime_of_decodeFrom {area : Buffer} {offset : Nat}
    (h : t ∈ (decodeFrom fileNameKeys area offset).value.flatMap instants) : t.IsFileTime := by
  fun_induction decodeFrom fileNameKeys area offset with
  | case1 => cases h
  | case2 => cases h
  | case3 offset _ header _ _ entry _ =>
      rw [List.flatMap_singleton] at h
      exact isFileTime_of_decodeAt h
  | case4 offset _ header _ _ entry _ ih =>
      rcases List.mem_append.mp h with hentry | hrest
      · exact isFileTime_of_decodeAt hentry
      · exact ih hrest

theorem isFileTime_of_decodeNode {raw : Buffer} {position : Nat}
    (h : t ∈ (decodeNode fileNameKeys raw position).value.flatMap instants) : t.IsFileTime := by
  rw [decodeNode] at h
  split at h
  · cases h
  · exact isFileTime_of_decodeFrom h

end IndexEntry

theorem IndexRoot.isFileTime_of_decode {raw : Buffer} {r : IndexRoot}
    (hr : (decode raw).value = some r) (h : t ∈ r.entries.flatMap IndexEntry.instants) :
    t.IsFileTime := by
  unfold decode at hr
  split at hr
  · cases hr
  · cases hr
    exact IndexEntry.isFileTime_of_decodeNode h

namespace IndexAllocation

variable {fileNameKeys : Bool}

theorem isFileTime_of_decodeBlock {index : Nat} {block : Buffer} {entries : List IndexEntry}
    (hentries : (decodeBlock fileNameKeys index block).value = some entries)
    (h : t ∈ entries.flatMap IndexEntry.instants) : t.IsFileTime := by
  rw [decodeBlock] at hentries
  split at hentries
  · cases hentries
  · dsimp only at hentries
    split at hentries
    · cases hentries
    · cases hentries
      exact IndexEntry.isFileTime_of_decodeNode h

theorem isFileTime_of_decodeBlocks {index : Nat} {blocks : List Buffer}
    {entries : List IndexEntry}
    (hentries : some entries ∈ (decodeBlocks fileNameKeys index blocks).value)
    (h : t ∈ entries.flatMap IndexEntry.instants) : t.IsFileTime := by
  induction blocks generalizing index with
  | nil => cases hentries
  | cons block rest ih =>
      rcases List.mem_cons.mp hentries with hfirst | hrest
      · exact isFileTime_of_decodeBlock hfirst.symm h
      · exact ih hrest

theorem isFileTime_of_decode {raw : Buffer} {announced : Option UInt32}
    (h : t ∈ (decode raw announced fileNameKeys).value.entries.flatMap IndexEntry.instants) :
    t.IsFileTime := by
  rw [decode] at h
  split at h
  · obtain ⟨e, he, ht⟩ := List.mem_flatMap.mp h
    obtain ⟨entries, hentries, he⟩ := List.mem_flatten.mp he
    obtain ⟨_, hblock, rfl⟩ := List.mem_filterMap.mp hentries
    exact isFileTime_of_decodeBlocks hblock (List.mem_flatMap.mpr ⟨e, he, ht⟩)
  · exact IndexEntry.isFileTime_of_decodeNode h

end IndexAllocation

/-! ## Attributes -/

namespace AttributeBody

/-- A value that could not be decoded has no instants. -/
theorem exists_of_mem_getD {α : Type} {wrap : α → AttributeBody} {decoded : Option α}
    (h : t ∈ ((decoded.map wrap).getD .undecoded).instants) :
    ∃ value, decoded = some value ∧ t ∈ (wrap value).instants := by
  cases decoded with
  | none => cases h
  | some value => exact ⟨value, rfl, h⟩

theorem isFileTime_of_decode {kind : AttributeKind} {name : Option String} {value : Bytes}
    (h : t ∈ (decode kind name value).value.instants) : t.IsFileTime := by
  cases kind with
  | standardInformation =>
      obtain ⟨s, hs, ht⟩ := exists_of_mem_getD h
      exact StandardInformation.isFileTime_of_decode hs ht
  | fileName =>
      obtain ⟨f, hf, ht⟩ := exists_of_mem_getD h
      exact FileName.isFileTime_of_decode hf ht
  | indexRoot =>
      obtain ⟨r, hr, ht⟩ := exists_of_mem_getD h
      exact IndexRoot.isFileTime_of_decode hr ht
  | indexAllocation => exact IndexAllocation.isFileTime_of_decode h
  | objectId =>
      obtain ⟨o, -, ht⟩ := exists_of_mem_getD h
      cases ht
  | volumeInformation =>
      obtain ⟨v, -, ht⟩ := exists_of_mem_getD h
      cases ht
  | reparsePoint =>
      obtain ⟨r, -, ht⟩ := exists_of_mem_getD h
      cases ht
  | _ => cases h

theorem instants_placeholder (kind : AttributeKind) : (placeholder kind).instants = [] := by
  cases kind <;> rfl

end AttributeBody

namespace Attribute

theorem isFileTime_of_resident {header : AttributeHeader} {raw : Bytes}
    (h : t ∈ (ResidentForm.decode header raw).value.2.instants) : t.IsFileTime := by
  unfold ResidentForm.decode at h
  dsimp only at h
  split at h
  · cases h
  · exact AttributeBody.isFileTime_of_decode h

theorem isFileTime_of_decode {raw : Bytes} {a : Attribute} (ha : (decode raw).value = some a)
    (h : t ∈ a.body.instants) : t.IsFileTime := by
  unfold decode at ha
  dsimp only at ha
  split at ha
  · cases ha
  · cases ha
    dsimp only at h
    split at h
    · rw [NonResidentForm.decode, AttributeBody.instants_placeholder] at h
      cases h
    · exact isFileTime_of_resident h

end Attribute

end Ntfs
