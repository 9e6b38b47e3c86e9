import Mathlib.Data.List.Forall2
import Ntfs.Proofs.Record.Walk

/-!
# Records read without a warning

A record that carries data and gives no warning was read whole.  Of an attribute this means that its
name, its value and its run list lie in its own bytes (`intact_of_clean`); of the walk, that every
declared length was followed (`exists_leads_of_clean`).  The one thing a record can lack without a
warning is its end mark: a walk that arrives behind the last byte just stops
(`parse_without_end_mark`).
-/

namespace Ntfs

namespace Attribute

/-- An attribute whose parts all lie in the bytes it was decoded from. -/
structure Intact (raw : Bytes) (a : Attribute) : Prop where
  decoded : decode raw = .clean (some a)
  name_inside : a.header.nameLength ≠ 0 →
    raw.Covers a.header.nameOffset.toNat (2 * a.header.nameLength.toNat) ∧ a.name.isSome
  value_inside : ∀ form, a.residency = .resident form →
    raw.Covers form.valueOffset.toNat form.valueLength.toNat
  runs_ended : ∀ form, a.residency = .nonResident form →
    form.runList = RunList.decode (raw.drop form.runListOffset.toNat) ∧
      form.runList.complete = true

variable {raw : Bytes}

theorem decodeName_of_clean {kind : AttributeKind}
    (h : (AttributeHeader.decodeName kind raw).notes = []) (hnamed : Bytes.u8 raw 9 ≠ 0) :
    raw.Covers (Bytes.u16 raw 10).toNat (2 * (Bytes.u8 raw 9).toNat) ∧
      (AttributeHeader.decodeName kind raw).value.isSome := by
  have hunits : (Bytes.u8 raw 9).toNat ≠ 0 := fun hzero => hnamed (UInt8.toNat_inj.mp hzero)
  simp only [AttributeHeader.decodeName, if_neg hunits] at h ⊢
  cases hslice : Bytes.slice? raw (Bytes.u16 raw 10).toNat (2 * (Bytes.u8 raw 9).toNat) with
  | none =>
      rw [hslice] at h
      cases h
  | some stored => exact ⟨Bytes.covers_of_le (Bytes.slice?_eq_some_iff.mp hslice).1, rfl⟩

/-- A value that gave no note lies inside its attribute. -/
theorem value_inside_of_clean {header : AttributeHeader} {form : ResidentForm}
    (h : (ResidentForm.decode header raw).notes = [])
    (hform : (ResidentForm.decode header raw).value.1 = .resident form) :
    raw.Covers form.valueOffset.toNat form.valueLength.toNat := by
  simp only [ResidentForm.decode] at h hform
  split at h
  · cases h
  · rename_i hheader
    rw [if_neg hheader] at hform
    cases hform
    obtain ⟨hcut, -⟩ := List.append_eq_nil_iff.mp h
    split at hcut
    · cases hcut
    · rename_i hlong
      intro position hle hlt
      rw [List.length_drop] at hlong
      dsimp only at hle hlt
      omega

/-- A run list that gave no note was read to its end mark. -/
theorem runs_ended_of_clean {header : AttributeHeader} {form : NonResidentForm}
    (h : (NonResidentForm.decode header raw).notes = [])
    (hform : (NonResidentForm.decode header raw).value.1 = .nonResident form) :
    form.runList = RunList.decode (raw.drop form.runListOffset.toNat) ∧
      form.runList.complete = true := by
  simp only [NonResidentForm.decode, List.append_eq_nil_iff] at h
  obtain ⟨⟨-, hruns⟩, -⟩ := h
  cases hform
  simp only [NonResidentForm.decodeRuns] at hruns ⊢
  split at hruns
  · rename_i hinside
    rw [if_pos hinside]
    cases hreason : (RunList.decode (raw.drop (Bytes.u16 raw 0x20).toNat)).stopReason with
    | none =>
        refine ⟨rfl, ?_⟩
        simpa [RunList.decode, Noted.clean] using hreason
    | some reason =>
        rw [hreason] at hruns
        cases hruns
  · cases hruns

theorem exists_resident_form (header : AttributeHeader) (raw : Bytes) :
    ∃ form, (ResidentForm.decode header raw).value.1 = .resident form := by
  simp only [ResidentForm.decode]
  split
  · exact ⟨_, rfl⟩
  · exact ⟨_, rfl⟩

/-- An attribute without a note is intact. -/
theorem intact_of_clean (hsize : AttributeHeader.size ≤ raw.length)
    (h : (decodeWhole raw).notes = []) : Intact raw (decodeWhole raw).value := by
  have hparts := List.append_eq_nil_iff.mp h
  obtain ⟨hheader, hcontent⟩ := hparts
  refine ⟨?_, fun hnamed => ?_, fun form hform => ?_, fun form hform => ?_⟩
  · rw [decode_of_size_le hsize]
    exact congrArg (Noted.mk _) h
  · exact decodeName_of_clean hheader hnamed
  · cases hresident : (AttributeHeader.decode raw).value.nonResident with
    | false =>
        simp only [decodeWhole, hresident] at hcontent hform
        exact value_inside_of_clean hcontent hform
    | true =>
        simp only [decodeWhole, hresident] at hform
        cases hform
  · cases hresident : (AttributeHeader.decode raw).value.nonResident with
    | false =>
        obtain ⟨other, hother⟩ := exists_resident_form (AttributeHeader.decode raw).value raw
        simp only [decodeWhole, hresident] at hform
        rw [if_neg (by decide), hother] at hform
        cases hform
    | true =>
        simp only [decodeWhole, hresident] at hcontent hform
        exact runs_ended_of_clean hcontent hform

end Attribute
namespace Record

variable {record : Bytes}

/-- Where the walk is neither at the end of the bytes nor at the end mark, only an attribute lets it go
on without a note. -/
theorem exists_declares_of_clean {start : Nat} (hstart : start < record.length)
    (hmore : ¬ EndsAt record start)
    (h : (attributesFrom start (record.drop start)).notes = []) :
    ∃ length, Declares record start length := by
  have hne : record.drop start ≠ [] := by
    rw [Ne, List.drop_eq_nil_iff]
    omega
  rw [attributesFrom, if_neg hne, Bytes.u32?_drop, Nat.add_zero] at h
  cases hcode : Bytes.u32? record start with
  | none =>
      rw [hcode] at h
      cases h
  | some code =>
      have hword : Bytes.u32 record start = code := by rw [Bytes.u32, hcode, Option.getD_some]
      have hcode_ne : code ≠ AttributeKind.endCode := by
        rintro rfl
        exact hmore hcode
      simp only [hcode, if_neg hcode_ne, Bytes.u32_drop, List.length_drop] at h
      split at h
      · cases h
      · rename_i hheader
        have hoverrun : (if record.length - start < (Bytes.u32 record (start + 4)).toNat
            then [Note.attributeOverrun start (Bytes.u32 record (start + 4)).toNat
              (record.length - start)] else []) = [] := by
          split at h
          · exact (List.append_eq_nil_iff.mp h).1
          · exact (List.append_eq_nil_iff.mp (List.append_eq_nil_iff.mp h).1).1
        split at hoverrun
        · cases hoverrun
        · exact ⟨_, hword ▸ hcode_ne, rfl, Nat.not_lt.mp hheader, by omega⟩

/-- A walk without a note follows declared lengths up to the end mark or the end of the bytes. -/
theorem exists_leads_of_clean {start : Nat}
    (h : (attributesFrom start (record.drop start)).notes = []) :
    ∃ lengths stop, Leads record start lengths stop ∧
      (EndsAt record stop ∨ record.length ≤ stop) ∧
      attributesFrom start (record.drop start) = attributesAt record start lengths := by
  by_cases hout : record.length ≤ start
  · exact ⟨[], start, .here, .inr hout, attributesFrom_of_length_le hout⟩
  by_cases hend : EndsAt record start
  · exact ⟨[], start, .here, .inl hend, attributesFrom_of_endsAt hend⟩
  obtain ⟨length, declares⟩ := exists_declares_of_clean (Nat.lt_of_not_le hout) hend h
  have hheader : 16 ≤ length := declares.header_le
  have hread := attributesFrom_of_declares declares
  have hrest : (attributesFrom (start + length) (record.drop (start + length))).notes = [] := by
    rw [hread] at h
    exact (List.append_eq_nil_iff.mp h).2
  obtain ⟨lengths, stop, leads, hstop, hattributes⟩ := exists_leads_of_clean hrest
  refine ⟨length :: lengths, stop, .step declares leads, hstop, ?_⟩
  rw [hread, hattributes, attributesAt]
termination_by record.length - start
decreasing_by omega

/-- The bytes of the attributes of the given lengths from `offset` on. -/
def partsAt (record : Bytes) : (offset : Nat) → (lengths : List Nat) → List Bytes
  | _, [] => []
  | offset, length :: rest => record.part offset length :: partsAt record (offset + length) rest

/-- Attributes that gave no note are intact, each in its own bytes. -/
theorem intact_attributesAt {start stop : Nat} {lengths : List Nat}
    (leads : Leads record start lengths stop)
    (h : (attributesAt record start lengths).notes = []) :
    List.Forall₂ Attribute.Intact (partsAt record start lengths)
      (attributesAt record start lengths).value := by
  induction leads with
  | here => exact .nil
  | step declares _ ih =>
      obtain ⟨hfirst, hrest⟩ := List.append_eq_nil_iff.mp h
      have hsize := declares.header_le
      exact .cons
        (Attribute.intact_of_clean (by rwa [Bytes.length_part declares.inside]) hfirst) (ih hrest)

/-- A record that carries data and is read without a warning was read whole: the declared lengths lead
to the end mark, or else to the end of the bytes, and each step gives one attribute, which is intact. -/
theorem parse_of_warnings_eq_nil (id : UInt64) (raw : Buffer)
    (hvalid : (parse id raw).isValid = true) (hclean : (parse id raw).warnings = []) :
    ∃ lengths stop, Leads (settledBytes raw) (attributesStart raw) lengths stop ∧
      (EndsAt (settledBytes raw) stop ∨ (settledBytes raw).length ≤ stop) ∧
      (parse id raw).attributes.length = lengths.length ∧
      List.Forall₂ Attribute.Intact (partsAt (settledBytes raw) (attributesStart raw) lengths)
        (parse id raw).attributes := by
  have hfile : (headerOf raw).signature = RecordHeader.fileSignature := by
    rw [isValid, header_parse] at hvalid
    exact beq_iff_eq.mp hvalid
  rw [parse_of_file id hfile] at hclean ⊢
  have hnotes : (walked raw).notes = [] :=
    List.map_eq_nil_iff.mp (List.append_eq_nil_iff.mp hclean).2
  obtain ⟨lengths, stop, leads, hstop, hwalked⟩ := exists_leads_of_clean hnotes
  have hattributes : walked raw = attributesAt (settledBytes raw) (attributesStart raw) lengths :=
    hwalked
  refine ⟨lengths, stop, leads, hstop, ?_, ?_⟩
  · rw [hattributes]
    exact length_attributesAt _ _ _
  · rw [hattributes] at hnotes ⊢
    exact intact_attributesAt leads hnotes

/-- A record with a named resident stream of four bytes and an unnamed one of 24 clusters. -/
def twoStreams : Bytes :=
  [0x46, 0x49, 0x4C, 0x45] ++ List.replicate 16 0 ++ [0x30, 0] ++ List.replicate 26 0 ++
    ([0x80, 0, 0, 0, 0x20, 0, 0, 0, 0, 1, 0x18, 0, 0, 0, 1, 0] ++
      [4, 0, 0, 0, 0x1C, 0, 0, 0, 0x61, 0, 0, 0, 1, 2, 3, 4]) ++
    ([0x80, 0, 0, 0, 0x48, 0, 0, 0, 1, 0, 0, 0, 0, 0, 2, 0] ++ List.replicate 16 0 ++
      [0x40, 0, 0, 0, 0, 0, 0, 0] ++ List.replicate 24 0 ++ [0x11, 0x18, 0x34, 0, 0, 0, 0, 0]) ++
    [0xFF, 0xFF, 0xFF, 0xFF]

theorem headerOf_twoStreams :
    headerOf (.ofList twoStreams) =
      { signature := RecordHeader.fileSignature, arrayOffset := 0, arrayCount := 0
        logSequence := 0, sequence := 0, hardLinks := 0, attributesOffset := 48, flags := 0
        bytesInUse := 0, bytesAllocated := 0, base := ⟨0, 0⟩, nextAttributeId := 0, number := 0 } := by
  rw [headerOf_ofList]
  rfl

theorem unprotected_twoStreams : (headerOf (.ofList twoStreams)).arrayCount.toNat < 2 := by
  rw [headerOf_twoStreams]
  decide

theorem leads_twoStreams : Leads twoStreams 48 [32, 72] 152 :=
  .step ⟨by decide, by decide, by decide, by decide +kernel⟩
    (.step ⟨by decide, by decide, by decide, by decide +kernel⟩ .here)

/-- The walk over the two streams, which stops at the end mark. -/
theorem walked_twoStreams :
    walked (.ofList twoStreams) = attributesAt twoStreams 48 [32, 72] := by
  have hbytes : settledBytes (.ofList twoStreams) = twoStreams :=
    settledBytes_ofList_of_unprotected unprotected_twoStreams (by decide +kernel)
  have hstart : attributesStart (.ofList twoStreams) = 48 := by
    rw [attributesStart, headerOf_twoStreams]
    rfl
  have hend : EndsAt twoStreams 152 := by
    rw [EndsAt]
    decide
  rw [walked, hbytes, hstart, attributesFrom_of_leads leads_twoStreams,
    attributesFrom_of_endsAt hend, Noted.append_clean]

theorem warnings_twoStreams : (parse 7 (.ofList twoStreams)).warnings = [] := by
  have hnotes : (attributesAt twoStreams 48 [32, 72]).notes = [] := by decide +kernel
  rw [parse_of_file 7 (congrArg RecordHeader.signature headerOf_twoStreams),
    fixupFault?_of_unprotected unprotected_twoStreams, walked_twoStreams, hnotes]
  rfl

/-- A named stream in the record and one on the disk. -/
theorem parse_of_warnings_eq_nil_twoStreams :
    (parse 7 (.ofList twoStreams)).isValid = true ∧ (parse 7 (.ofList twoStreams)).warnings = [] ∧
    ∃ lengths : List Nat, lengths.length = 2 ∧
      List.Forall₂ Attribute.Intact
        (partsAt (settledBytes (.ofList twoStreams)) (attributesStart (.ofList twoStreams)) lengths)
        (parse 7 (.ofList twoStreams)).attributes := by
  have hvalid : (parse 7 (.ofList twoStreams)).isValid = true := by
    rw [isValid, header_parse, headerOf_twoStreams]
    decide
  have hcount : (parse 7 (.ofList twoStreams)).attributes.length = 2 := by
    rw [parse_of_file 7 (congrArg RecordHeader.signature headerOf_twoStreams), walked_twoStreams]
    exact length_attributesAt _ _ _
  obtain ⟨lengths, stop, -, -, hlengths, hintact⟩ :=
    parse_of_warnings_eq_nil 7 (.ofList twoStreams) hvalid warnings_twoStreams
  exact ⟨hvalid, warnings_twoStreams, lengths, hlengths ▸ hcount, hintact⟩

/-- A record of full size whose header sends the walk behind its last byte, past the attribute and the
end mark that stand in it. -/
def overlooked : Bytes :=
  [0x46, 0x49, 0x4C, 0x45] ++ List.replicate 16 0 ++ [0, 4] ++ List.replicate 34 0 ++
    ([0x80, 0, 0, 0, 0x18, 0, 0, 0] ++ List.replicate 12 0 ++ [0x18, 0, 0, 0]) ++
    [0xFF, 0xFF, 0xFF, 0xFF] ++ List.replicate 940 0

theorem headerOf_overlooked :
    headerOf (.ofList overlooked) =
      { signature := RecordHeader.fileSignature, arrayOffset := 0, arrayCount := 0
        logSequence := 0, sequence := 0, hardLinks := 0, attributesOffset := 1024, flags := 0
        bytesInUse := 0, bytesAllocated := 0, base := ⟨0, 0⟩, nextAttributeId := 0, number := 0 } := by
  rw [headerOf_ofList]
  rfl

/-- No warning does not mean that the walk has seen an end mark. -/
theorem parse_without_end_mark :
    ¬ ∀ (id : UInt64) (raw : Buffer), (parse id raw).isValid = true → (parse id raw).warnings = [] →
      ∃ lengths stop, Leads (settledBytes raw) (attributesStart raw) lengths stop ∧
        EndsAt (settledBytes raw) stop := by
  intro hall
  have hcount : (headerOf (.ofList overlooked)).arrayCount.toNat < 2 := by
    rw [headerOf_overlooked]
    decide
  have hlength : overlooked.length = 1024 := by decide +kernel
  have hbytes : settledBytes (.ofList overlooked) = overlooked :=
    settledBytes_ofList_of_unprotected hcount (Nat.le_of_eq hlength)
  have hstart : attributesStart (.ofList overlooked) = 1024 := by
    rw [attributesStart, headerOf_overlooked]
    rfl
  have hwalked : walked (.ofList overlooked) = .clean [] := by
    rw [walked, hbytes, hstart, attributesFrom_of_length_le (Nat.le_of_eq hlength)]
  have hvalid : (parse 0 (.ofList overlooked)).isValid = true := by
    rw [isValid, header_parse, headerOf_overlooked]
    decide
  have hclean : (parse 0 (.ofList overlooked)).warnings = [] := by
    rw [parse_of_file 0 (congrArg RecordHeader.signature headerOf_overlooked),
      fixupFault?_of_unprotected hcount, hwalked]
    rfl
  obtain ⟨lengths, stop, leads, hend⟩ := hall 0 (.ofList overlooked) hvalid hclean
  rw [hbytes, hstart] at leads
  rw [hbytes] at hend
  have hle := leads.le
  have hnone : Bytes.word? overlooked stop 4 = none :=
    (Bytes.word?_eq_none_iff (by decide)).mpr (by omega)
  rw [EndsAt, Bytes.u32?, hnone] at hend
  cases hend

end Record

end Ntfs
