import Ntfs.Proofs.Attribute.Json
import Ntfs.Record.Json

/-!
# Records are read back from JSON

A record is read back from its stored form in every field, if the instants in it have time stamps.
-/

namespace Ntfs

open Json

@[simp]
theorem Warning.ofJson?_toJson (w : Warning) : ofJson? w.toJson = some w := by
  cases w with
  | _ =>
      rw [toJson, ofJson?]
      apply tagged?_bind
      apply members?_bind rfl
      · simp
      · simp

namespace RecordHeader

@[simp]
theorem signature?_bytes (signature : UInt32) :
    signature? (bytes (Bytes.ofNatLE 4 signature.toNat)) = some signature := by
  have hword : Bytes.toNatLE (Bytes.ofNatLE 4 signature.toNat) = signature.toNat :=
    Bytes.toNatLE_ofNatLE signature.toNat_lt
  rw [signature?, bytes?_bytes, Option.bind_eq_bind, Option.bind_some, Bytes.length_ofNatLE,
    if_pos rfl, hword, UInt32.ofNat_toNat]
  rfl

@[simp]
theorem ofJson?_toJson (h : RecordHeader) : ofJson? h.toJson = some h := by
  rw [ofJson?, toJson]
  apply fields?_bind rfl
  · simp
  · simp

end RecordHeader

namespace Record

def instants (r : Record) : List Instant := r.attributes.flatMap fun a => a.body.instants

/-- A record is read back from its JSON form. -/
theorem ofJson?_toJson {r : Record} (h : ∀ t ∈ r.instants, t.HasStamp) :
    ofJson? r.toJson = some r := by
  have hattributes : list? Attribute.ofJson? (list Attribute.toJson r.attributes) =
      some r.attributes :=
    list?_list fun a ha => Attribute.ofJson?_toJson fun t ht =>
      h t (List.mem_flatMap.mpr ⟨a, ha, ht⟩)
  have hwarnings : list? Warning.ofJson? (list Warning.toJson r.warnings) = some r.warnings :=
    list?_list fun w _ => w.ofJson?_toJson
  rw [ofJson?, toJson]
  apply fields?_bind rfl
  · simp
  · simp [hattributes, hwarnings]

end Record

end Ntfs
