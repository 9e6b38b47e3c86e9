import Ntfs.Proofs.Record.Walk

/-!
# A payload cannot move the next attribute

The walk over a record reads the type and the declared length of an attribute and nothing else.  So two
records that differ only behind those eight bytes of one attribute, and not past its end, are walked in
step: all other attributes are the same, and so are the notes on them.
-/

namespace Ntfs

namespace Record

section Walk

variable {a b : Bytes} {start stop offset length : Nat} {lengths : List Nat}

theorem Declares.congr (hsize : a.length = b.length)
    (hfront : a.take (offset + 8) = b.take (offset + 8)) (h : Declares a offset length) :
    Declares b offset length where
  code_ne := by
    rw [← Bytes.u32_of_take_eq hfront (by omega)]
    exact h.code_ne
  length_eq := by
    rw [← Bytes.u32_of_take_eq hfront (by omega)]
    exact h.length_eq
  header_le := h.header_le
  inside := hsize ▸ h.inside

/-- What the walk has passed does not depend on what comes later. -/
theorem Leads.congr (hsize : a.length = b.length) (hfront : a.take stop = b.take stop)
    (h : Leads a start lengths stop) :
    Leads b start lengths stop ∧ attributesAt a start lengths = attributesAt b start lengths := by
  induction h with
  | here => exact ⟨.here, rfl⟩
  | @step start length stop lengths declares rest ih =>
      obtain ⟨hrest, hattributes⟩ := ih hfront
      have hle := rest.le
      have hheader : 16 ≤ length := declares.header_le
      have hshort : a.take (start + 8) = b.take (start + 8) :=
        Bytes.take_of_take_eq hfront (by omega)
      refine ⟨.step (declares.congr hsize hshort) hrest, ?_⟩
      rw [attributesAt, attributesAt, hattributes, Bytes.part_of_take_eq hfront hle]

/-- The attributes in front of a payload and behind it are read the same from both records. -/
theorem attributesFrom_of_payload (hsize : a.length = b.length)
    (hleads : Leads a start lengths offset) (hdeclares : Declares a offset length)
    (hsame : ∀ i, ¬ (offset + 8 ≤ i ∧ i < offset + length) → a[i]? = b[i]?) :
    ∃ front back : Noted (List Attribute), front.value.length = lengths.length ∧
      attributesFrom start (a.drop start) =
        front.append ((Attribute.decodeWhole (a.part offset length)).cons back) ∧
      attributesFrom start (b.drop start) =
        front.append ((Attribute.decodeWhole (b.part offset length)).cons back) := by
  have hfront : a.take (offset + 8) = b.take (offset + 8) := by
    apply List.ext_getElem?
    intro i
    rw [List.getElem?_take, List.getElem?_take]
    split
    · exact hsame i (by omega)
    · rfl
  have hpassed : a.take offset = b.take offset :=
    Bytes.take_of_take_eq hfront (Nat.le_add_right _ _)
  have hback : a.drop (offset + length) = b.drop (offset + length) := by
    apply List.ext_getElem?
    intro i
    rw [List.getElem?_drop, List.getElem?_drop]
    exact hsame _ (by omega)
  obtain ⟨hleads', hattributes⟩ := hleads.congr hsize hpassed
  refine ⟨attributesAt a start lengths,
    attributesFrom (offset + length) (a.drop (offset + length)),
    length_attributesAt a start lengths, ?_, ?_⟩
  · rw [attributesFrom_of_leads hleads, attributesFrom_of_declares hdeclares]
  · rw [attributesFrom_of_leads hleads', attributesFrom_of_declares (hdeclares.congr hsize hfront),
      hattributes, hback]

end Walk

variable {a b : Buffer} {offset length : Nat} {lengths : List Nat}

/-- Whatever stands in the payload of an attribute that the walk reaches: as many attributes are read,
all others are the same, and the warnings are the same but for the notes on that attribute. -/
theorem parse_isolates_payload (id : UInt64) (hheader : headerOf a = headerOf b)
    (hfile : (headerOf a).signature = RecordHeader.fileSignature)
    (hfixup : fixupFault? a = fixupFault? b)
    (hsize : (settledBytes a).length = (settledBytes b).length)
    (hleads : Leads (settledBytes a) (attributesStart a) lengths offset)
    (hdeclares : Declares (settledBytes a) offset length)
    (hsame : ∀ i, ¬ (offset + 8 ≤ i ∧ i < offset + length) →
      (settledBytes a)[i]? = (settledBytes b)[i]?) :
    ∃ (before after : List Attribute) (x y : Noted Attribute) (front back : List Warning),
      before.length = lengths.length ∧
      Attribute.decode ((settledBytes a).part offset length) = x.map some ∧
      Attribute.decode ((settledBytes b).part offset length) = y.map some ∧
      (parse id a).attributes = before ++ x.value :: after ∧
      (parse id b).attributes = before ++ y.value :: after ∧
      (parse id a).warnings = front ++ x.notes.map (Warning.ofNote id) ++ back ∧
      (parse id b).warnings = front ++ y.notes.map (Warning.ofNote id) ++ back := by
  have hfile' : (headerOf b).signature = RecordHeader.fileSignature := hheader ▸ hfile
  have hstart : attributesStart a = attributesStart b := by
    rw [attributesStart, attributesStart, hheader]
  have hinside := hdeclares.inside
  have hdecode : ∀ raw : Bytes, offset + length ≤ raw.length →
      Attribute.decode (raw.part offset length) =
        (Attribute.decodeWhole (raw.part offset length)).map some := by
    intro raw hraw
    exact Attribute.decode_of_size_le (by rw [Bytes.length_part hraw]; exact hdeclares.header_le)
  obtain ⟨passed, rest, hlength, ha, hb⟩ := attributesFrom_of_payload hsize hleads hdeclares hsame
  have hwalked : walked a =
      passed.append ((Attribute.decodeWhole ((settledBytes a).part offset length)).cons rest) := ha
  have hwalked' : walked b =
      passed.append ((Attribute.decodeWhole ((settledBytes b).part offset length)).cons rest) := by
    rw [walked, ← hstart, hb]
  refine ⟨passed.value, rest.value, _, _,
    ((fixupFault? a).toList.map fun fault => Warning.corruption id fault.message) ++
      passed.notes.map (Warning.ofNote id), rest.notes.map (Warning.ofNote id), hlength,
    hdecode _ hinside, hdecode _ (hsize ▸ hinside), ?_, ?_, ?_, ?_⟩
  · rw [parse_of_file id hfile, hwalked]
    rfl
  · rw [parse_of_file id hfile', hwalked']
    rfl
  · rw [parse_of_file id hfile, hwalked]
    simp [Noted.append, Noted.cons]
  · rw [parse_of_file id hfile', hwalked', ← hfixup]
    simp [Noted.append, Noted.cons]

/-- A record with two resident attributes that have no content. -/
def twoAttributes : Bytes :=
  [0x46, 0x49, 0x4C, 0x45] ++ List.replicate 16 0 ++ [0x30, 0] ++ List.replicate 26 0 ++
    ([0x80, 0, 0, 0, 0x18, 0, 0, 0] ++ List.replicate 12 0 ++ [0x18, 0, 0, 0]) ++
    ([0xB0, 0, 0, 0, 0x18, 0, 0, 0] ++ List.replicate 12 0 ++ [0x18, 0, 0, 0]) ++
    [0xFF, 0xFF, 0xFF, 0xFF]

/-- The same record, where the first attribute claims to lie on the disk and to have a long name. -/
def twoAttributesDamaged : Bytes :=
  twoAttributes.take 56 ++ [1, 0xFF, 0xFF, 0xFF] ++ twoAttributes.drop 60

theorem getElem?_twoAttributesDamaged {i : Nat} (h : ¬ (56 ≤ i ∧ i < 72)) :
    twoAttributes[i]? = twoAttributesDamaged[i]? := by
  have hall : ∀ j : Fin 100, ¬ (56 ≤ j.val ∧ j.val < 72) →
      twoAttributes[j.val]? = twoAttributesDamaged[j.val]? := by decide
  by_cases hlt : i < 100
  · exact hall ⟨i, hlt⟩ h
  · rw [List.getElem?_eq_none (Nat.not_lt.mp hlt), List.getElem?_eq_none (Nat.not_lt.mp hlt)]

theorem headerOf_twoAttributes :
    headerOf (.ofList twoAttributes) =
      { signature := RecordHeader.fileSignature, arrayOffset := 0, arrayCount := 0
        logSequence := 0, sequence := 0, hardLinks := 0, attributesOffset := 48, flags := 0
        bytesInUse := 0, bytesAllocated := 0, base := ⟨0, 0⟩, nextAttributeId := 0, number := 0 } := by
  rw [headerOf_ofList]
  decide

theorem headerOf_twoAttributesDamaged :
    headerOf (.ofList twoAttributesDamaged) = headerOf (.ofList twoAttributes) := by
  rw [headerOf_ofList, headerOf_ofList]
  rfl

/-- The first of two attributes is damaged, and the second one stays as it is. -/
theorem parse_isolates_payload_twoAttributes :
    Declares (settledBytes (.ofList twoAttributes)) 48 24 ∧
    settledBytes (.ofList twoAttributes) ≠ settledBytes (.ofList twoAttributesDamaged) ∧
    ∃ (x y : Noted Attribute) (after : List Attribute) (front back : List Warning),
      (parse 7 (.ofList twoAttributes)).attributes = x.value :: after ∧
      (parse 7 (.ofList twoAttributesDamaged)).attributes = y.value :: after ∧
      (parse 7 (.ofList twoAttributes)).warnings =
        front ++ x.notes.map (Warning.ofNote 7) ++ back ∧
      (parse 7 (.ofList twoAttributesDamaged)).warnings =
        front ++ y.notes.map (Warning.ofNote 7) ++ back := by
  have hcount : (headerOf (.ofList twoAttributes)).arrayCount.toNat < 2 := by
    rw [headerOf_twoAttributes]
    decide
  have hcount' : (headerOf (.ofList twoAttributesDamaged)).arrayCount.toNat < 2 := by
    rwa [headerOf_twoAttributesDamaged]
  have ha : settledBytes (.ofList twoAttributes) = twoAttributes :=
    settledBytes_ofList_of_unprotected hcount (by decide)
  have hb : settledBytes (.ofList twoAttributesDamaged) = twoAttributesDamaged :=
    settledBytes_ofList_of_unprotected hcount' (by decide)
  have hstart : attributesStart (.ofList twoAttributes) = 48 := by
    rw [attributesStart, headerOf_twoAttributes]
    rfl
  have hdeclares : Declares (settledBytes (.ofList twoAttributes)) 48 24 := by
    rw [ha]
    exact ⟨by decide, by decide, by decide, by decide⟩
  have hleads : Leads (settledBytes (.ofList twoAttributes))
      (attributesStart (.ofList twoAttributes)) [] 48 := by
    rw [hstart]
    exact .here
  have hsame : ∀ i, ¬ (48 + 8 ≤ i ∧ i < 48 + 24) →
      (settledBytes (.ofList twoAttributes))[i]? =
        (settledBytes (.ofList twoAttributesDamaged))[i]? := by
    intro i hi
    rw [ha, hb]
    exact getElem?_twoAttributesDamaged hi
  obtain ⟨before, after, x, y, front, back, hbefore, -, -, hx, hy, hxw, hyw⟩ :=
    parse_isolates_payload 7 headerOf_twoAttributesDamaged.symm
      (congrArg RecordHeader.signature headerOf_twoAttributes)
      (by rw [fixupFault?_of_unprotected hcount, fixupFault?_of_unprotected hcount'])
      (by rw [ha, hb]; rfl) hleads hdeclares hsame
  obtain rfl : before = [] := List.length_eq_zero_iff.mp hbefore
  refine ⟨hdeclares, ?_, x, y, after, front, back, hx, hy, hxw, hyw⟩
  rw [ha, hb]
  decide

end Record

end Ntfs
