import Ntfs.Proofs.Content.Reference
import Ntfs.Record.Parse

/-!
# Streams in one piece

A stream is read attribute by attribute along the chain of its record, with one limit for all of
them.  On a disk that never refuses this gives the content of the matching attributes, one after the
other, cut once at the length the stream declares, and the only failures are those of a stream that
is not there.
-/

namespace Ntfs.Content

variable {disk : Disk} {contents : Bytes} {g : Geometry}

/-- The attributes of a stream: in the order of the chain, and of each record. -/
def matching (t : Table) (id : Nat) (key : StreamKey) : List Attribute :=
  (t.chainRecords id).flatMap fun r => r.attributes.filter key.selects

/-- The length that the first attribute with meaningful sizes declares. -/
def declaredLength (found : List Attribute) : Nat :=
  ((found.find? Attribute.isFirstExtent).map (·.contentSize.toNat)).getD maxWord

theorem map_snd_parts (t : Table) (id : Nat) (key : StreamKey) :
    (parts t id key).map (·.2) = matching t id key := by
  simp [parts, matching, List.map_flatMap, Function.comp_def]

theorem limit_parts (t : Table) (id : Nat) (key : StreamKey) :
    limit (parts t id key) = declaredLength (matching t id key) := by
  rw [← map_snd_parts, declaredLength, List.find?_map, limit]
  have hcomp : (parts t id key).find? (Attribute.isFirstExtent ∘ (·.2)) =
      (parts t id key).find? (·.2.isFirstExtent) := rfl
  rw [hcomp]
  cases (parts t id key).find? (·.2.isFirstExtent) <;> rfl

theorem declaredLength_le (found : List Attribute) : declaredLength found ≤ maxWord := by
  unfold declaredLength
  cases found.find? Attribute.isFirstExtent with
  | none => exact Nat.le_refl _
  | some a => exact Nat.le_of_lt_succ a.contentSize.toNat_lt

theorem parts_eq_nil_iff {t : Table} {id : Nat} {key : StreamKey} :
    parts t id key = [] ↔ matching t id key = [] := by
  rw [← map_snd_parts, List.map_eq_nil_iff]

theorem walkStream_of_outside {t : Table} {id : Nat} (h : t.size ≤ id) (key : StreamKey) :
    walkStream disk g t id key = .fail (.outsideTable id) := by
  rw [walkStream, if_neg (by omega)]

theorem walkStream_of_nil {t : Table} {id : Nat} {key : StreamKey} (hid : id < t.size)
    (h : matching t id key = []) :
    walkStream disk g t id key = .fail (.missing id (.stream key.kind)) := by
  rw [walkStream, if_pos hid, parts_eq_nil_iff.mpr h]

/-- A stream of a record in the table is read part by part, up to its declared length. -/
theorem walkStream_of_ne_nil {t : Table} {id : Nat} {key : StreamKey} (hid : id < t.size)
    (h : matching t id key ≠ []) :
    walkStream disk g t id key =
      walkParts disk g (declaredLength (matching t id key)) (parts t id key) := by
  rw [walkStream, if_pos hid, ← limit_parts]
  cases hparts : parts t id key with
  | nil => exact absurd (parts_eq_nil_iff.mp hparts) h
  | cons part rest => rfl

/-- Whatever a stream is read to is its content in one piece, cut at the declared length. -/
theorem walkStream_returns (hholds : disk.Holds contents) {t : Table} {id : Nat} {key : StreamKey}
    (hid : id < t.size) (h : matching t id key ≠ []) :
    (walkStream disk g t id key).Returns
      (((matching t id key).flatMap (attributeContent disk contents g)).take
        (declaredLength (matching t id key)))
      (((matching t id key).flatMap (attributeContent disk contents g)).take
        (declaredLength (matching t id key))).length := by
  have hcontent : (matching t id key).flatMap (attributeContent disk contents g) =
      (parts t id key).flatMap fun part => attributeContent disk contents g part.2 := by
    rw [← map_snd_parts, List.flatMap_map]
  rw [walkStream_of_ne_nil hid h, hcontent]
  exact walkParts_returns hholds (declaredLength_le _) _

theorem ofStream_result (t : Table) (id : Nat) (key : StreamKey) (e : Failure) :
    (ofStream disk g t id key).result = .error e ↔
      (walkStream disk g t id key).result = .error e := by
  cases h : (walkStream disk g t id key).result <;>
    simp [ofStream, Trace.collect, Except.map, h]

theorem walkStream_succeeds (hholds : disk.Holds contents) (hnever : disk.NeverFails) {t : Table}
    {id : Nat} {key : StreamKey} (hid : id < t.size) (hne : matching t id key ≠ [])
    (hdata : ∀ a ∈ matching t id key, a.isNonResident = false → ∃ bytes, a.body = .data bytes) :
    (walkStream disk g t id key).Succeeds := by
  have hresident : ∀ part ∈ parts t id key, part.2.isNonResident = false →
      (residentContent? part.2.body).isSome := by
    intro part hpart hresidency
    have hmem : part.2 ∈ matching t id key := by
      rw [← map_snd_parts]
      exact List.mem_map_of_mem hpart
    obtain ⟨bytes, hbody⟩ := hdata part.2 hmem hresidency
    rw [hbody]
    rfl
  rw [walkStream_of_ne_nil hid hne]
  exact walkParts_succeeds hholds hnever _ hresident

/-- The content of a stream that can be read is that of its attributes, cut to the declared length. -/
theorem ofStream_result_of_succeeds (hholds : disk.Holds contents) {t : Table} {id : Nat}
    {key : StreamKey} (hid : id < t.size) (hne : matching t id key ≠ [])
    (hsucceeds : (walkStream disk g t id key).Succeeds) :
    (ofStream disk g t id key).result =
      .ok (Buffer.ofList (((matching t id key).flatMap (attributeContent disk contents g)).take
        (declaredLength (matching t id key)))) := by
  obtain ⟨n, hn⟩ := hsucceeds
  refine Trace.collect_result_eq_ok_iff.mpr ⟨⟨n, hn⟩, ?_⟩
  rw [Buffer.toList_ofList, (walkStream_returns hholds hid hne n hn).1]

end Ntfs.Content
