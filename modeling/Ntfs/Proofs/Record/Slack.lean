import Ntfs.Proofs.Record.Isolation

/-!
# Slack

A record is in use up to its end mark, and an index node up to the end of its used area.  What
stands behind was left there by files that are gone.  A reader that follows lengths it cannot trust
could pick it up again; here nothing of it is read.  Two records, or two nodes, that agree on what
is in use are read the same (`slack_is_not_read`).
-/

namespace Ntfs

namespace Record

section Walk

variable {a b : Bytes} {start stop : Nat} {lengths : List Nat}

theorem EndsAt.congr (hlive : a.take (stop + 4) = b.take (stop + 4)) (h : EndsAt a stop) :
    EndsAt b stop := by
  rw [EndsAt, Bytes.u32?, ← Bytes.word?_of_take_eq hlive (Nat.le_refl _)]
  exact h

/-- A walk that comes to the end mark has seen nothing behind it. -/
theorem attributesFrom_of_live (hsize : a.length = b.length)
    (hlive : a.take (stop + 4) = b.take (stop + 4)) (hleads : Leads a start lengths stop)
    (hend : EndsAt a stop) :
    attributesFrom start (a.drop start) = attributesFrom start (b.drop start) := by
  have hpassed : a.take stop = b.take stop :=
    Bytes.take_of_take_eq hlive (Nat.le_add_right _ _)
  obtain ⟨hleads', hattributes⟩ := hleads.congr hsize hpassed
  calc attributesFrom start (a.drop start)
      = (attributesAt a start lengths).append (.clean []) := by
        rw [attributesFrom_of_leads hleads, attributesFrom_of_endsAt hend]
    _ = (attributesAt b start lengths).append (.clean []) := by rw [hattributes]
    _ = attributesFrom start (b.drop start) := by
        rw [attributesFrom_of_leads hleads', attributesFrom_of_endsAt (hend.congr hlive)]

end Walk

variable {a b : Buffer} {stop : Nat} {lengths : List Nat}

/-- Records that agree up to the end mark are read the same, with the same warnings. -/
theorem parse_of_live (id : UInt64) (hheader : headerOf a = headerOf b)
    (hfile : (headerOf a).signature = RecordHeader.fileSignature)
    (hfixup : fixupFault? a = fixupFault? b)
    (hsize : (settledBytes a).length = (settledBytes b).length)
    (hleads : Leads (settledBytes a) (attributesStart a) lengths stop)
    (hend : EndsAt (settledBytes a) stop)
    (hlive : (settledBytes a).take (stop + 4) = (settledBytes b).take (stop + 4)) :
    parse id a = parse id b := by
  have hfile' : (headerOf b).signature = RecordHeader.fileSignature := hheader ▸ hfile
  have hstart : attributesStart a = attributesStart b := by
    rw [attributesStart, attributesStart, hheader]
  have hwalked : walked a = walked b := by
    rw [walked, attributesFrom_of_live hsize hlive hleads hend, hstart, walked]
  rw [parse_of_file id hfile, parse_of_file id hfile', hheader, hfixup, hwalked]

end Record

namespace IndexEntry

variable {a b : Buffer} {position : Nat} {node : IndexNode}

/-- Nodes that agree on their used area, as far as it exists, have the same entries and notes. -/
theorem decodeNode_of_used (fileNameKeys : Bool) (hsize : a.size = b.size)
    (ha : IndexNode.decode? a position = some node)
    (hb : IndexNode.decode? b position = some node)
    (hused : a.toList.take (min a.size (position + node.usedLength.toNat)) =
      b.toList.take (min a.size (position + node.usedLength.toNat))) :
    decodeNode fileNameKeys a position = decodeNode fileNameKeys b position := by
  have hexists : ∀ (c : Buffer) (stop : Nat), c.size = a.size →
      c.toList.take stop = c.toList.take (min a.size stop) := by
    intro c stop hc
    rw [List.take_eq_take_iff, Buffer.length_toList, hc]
    omega
  have harea : a.slice 0 (position + node.usedLength.toNat) =
      b.slice 0 (position + node.usedLength.toNat) := by
    apply Buffer.ext
    rw [Buffer.toList_slice, Buffer.toList_slice, List.drop_zero, List.drop_zero, hexists a _ rfl,
      hexists b _ hsize.symm]
    exact hused
  rw [decodeNode, decodeNode, ha, hb]
  simp only [harea, hsize]

end IndexEntry

/-- Whatever stands behind the end mark of a record or behind the used area of an index node: the
same attributes, entries, warnings and notes are read. -/
theorem slack_is_not_read :
    (∀ (id : UInt64) (a b : Buffer) (lengths : List Nat) (stop : Nat),
      Record.headerOf a = Record.headerOf b →
      (Record.headerOf a).signature = RecordHeader.fileSignature →
      Record.fixupFault? a = Record.fixupFault? b →
      (Record.settledBytes a).length = (Record.settledBytes b).length →
      Record.Leads (Record.settledBytes a) (Record.attributesStart a) lengths stop →
      Record.EndsAt (Record.settledBytes a) stop →
      (Record.settledBytes a).take (stop + 4) = (Record.settledBytes b).take (stop + 4) →
      Record.parse id a = Record.parse id b) ∧
    ∀ (fileNameKeys : Bool) (a b : Buffer) (position : Nat) (node : IndexNode),
      a.size = b.size → IndexNode.decode? a position = some node →
      IndexNode.decode? b position = some node →
      a.toList.take (min a.size (position + node.usedLength.toNat)) =
        b.toList.take (min a.size (position + node.usedLength.toNat)) →
      IndexEntry.decodeNode fileNameKeys a position =
        IndexEntry.decodeNode fileNameKeys b position := by
  constructor
  · intro id a b lengths stop hheader hfile hfixup hsize hleads hend hlive
    exact Record.parse_of_live id hheader hfile hfixup hsize hleads hend hlive
  · intro fileNameKeys a b position node hsize ha hb hused
    exact IndexEntry.decodeNode_of_used fileNameKeys hsize ha hb hused

namespace Record

/-- A record with two attributes, and more bytes behind its end mark. -/
def twoAttributesBefore (slack : Bytes) : Bytes := twoAttributes ++ slack

theorem headerOf_twoAttributesBefore (slack : Bytes) :
    headerOf (.ofList (twoAttributesBefore slack)) = headerOf (.ofList twoAttributes) := by
  rw [headerOf_ofList, headerOf_ofList, twoAttributesBefore,
    List.take_append_of_le_length (by decide)]

theorem unprotected_twoAttributesBefore (slack : Bytes) :
    (headerOf (.ofList (twoAttributesBefore slack))).arrayCount.toNat < 2 := by
  rw [headerOf_twoAttributesBefore, headerOf_twoAttributes]
  decide

theorem settledBytes_twoAttributesBefore {slack : Bytes} (h : slack.length ≤ 900) :
    settledBytes (.ofList (twoAttributesBefore slack)) = twoAttributesBefore slack := by
  apply settledBytes_ofList_of_unprotected (unprotected_twoAttributesBefore slack)
  calc (twoAttributesBefore slack).length
      = 100 + slack.length := List.length_append
    _ ≤ 100 + 900 := Nat.add_le_add_left h 100
    _ ≤ size := by decide

/-- The end mark stands behind both attributes, whatever follows it. -/
theorem leads_twoAttributesBefore :
    Leads (twoAttributesBefore [0x80, 0, 0, 0]) 48 [24, 24] 96 :=
  .step ⟨by decide, by decide, by decide, by decide⟩
    (.step ⟨by decide, by decide, by decide, by decide⟩ .here)

end Record

/-- A node without keys, and more bytes behind its used area. -/
def emptyNodeBefore (slack : Bytes) : Buffer :=
  .ofList ([0x10, 0, 0, 0, 0x20, 0, 0, 0, 0x40, 0, 0, 0, 0, 0, 0, 0] ++
    [0, 0, 0, 0, 0, 0, 0, 0, 0x10, 0, 0, 0, 2, 0, 0, 0] ++ slack)

theorem decode?_emptyNodeBefore (slack : Bytes) :
    IndexNode.decode? (emptyNodeBefore slack) 0 = some ⟨0x10, 0x20, 0x40, 0⟩ := by
  rw [IndexNode.decode?, emptyNodeBefore, Buffer.window_eq, Buffer.toList_ofList]
  rfl

theorem size_emptyNodeBefore (slack : Bytes) :
    (emptyNodeBefore slack).size = 32 + slack.length := by
  rw [emptyNodeBefore, ← Buffer.length_toList, Buffer.toList_ofList]
  exact List.length_append

/-- Leftovers behind the end mark of a record and behind the used area of a node. -/
theorem slack_is_not_read_leftovers :
    Record.twoAttributesBefore [0x80, 0, 0, 0] ≠ Record.twoAttributesBefore [9, 8, 7, 6] ∧
    Record.parse 7 (.ofList (Record.twoAttributesBefore [0x80, 0, 0, 0])) =
      Record.parse 7 (.ofList (Record.twoAttributesBefore [9, 8, 7, 6])) ∧
    emptyNodeBefore [1, 2, 3] ≠ emptyNodeBefore [4, 5, 6] ∧
    IndexEntry.decodeNode true (emptyNodeBefore [1, 2, 3]) 0 =
      IndexEntry.decodeNode true (emptyNodeBefore [4, 5, 6]) 0 := by
  have hsettled : Record.settledBytes (.ofList (Record.twoAttributesBefore [0x80, 0, 0, 0])) =
      Record.twoAttributesBefore [0x80, 0, 0, 0] :=
    Record.settledBytes_twoAttributesBefore (by decide)
  have hsettled' : Record.settledBytes (.ofList (Record.twoAttributesBefore [9, 8, 7, 6])) =
      Record.twoAttributesBefore [9, 8, 7, 6] :=
    Record.settledBytes_twoAttributesBefore (by decide)
  have hstart : Record.attributesStart (.ofList (Record.twoAttributesBefore [0x80, 0, 0, 0])) =
      48 := by
    rw [Record.attributesStart, Record.headerOf_twoAttributesBefore, Record.headerOf_twoAttributes]
    rfl
  refine ⟨by decide, ?_, ?_, ?_⟩
  · apply slack_is_not_read.1 7 _ _ [24, 24] 96
    · rw [Record.headerOf_twoAttributesBefore, Record.headerOf_twoAttributesBefore]
    · rw [Record.headerOf_twoAttributesBefore, Record.headerOf_twoAttributes]
    · rw [Record.fixupFault?_of_unprotected (Record.unprotected_twoAttributesBefore _),
        Record.fixupFault?_of_unprotected (Record.unprotected_twoAttributesBefore _)]
    · rw [hsettled, hsettled']
      rfl
    · rw [hsettled, hstart]
      exact Record.leads_twoAttributesBefore
    · rw [hsettled, Record.EndsAt]
      decide +kernel
    · rw [hsettled, hsettled']
      decide +kernel
  · intro heq
    have hbytes := congrArg Buffer.toList heq
    rw [emptyNodeBefore, emptyNodeBefore, Buffer.toList_ofList, Buffer.toList_ofList] at hbytes
    exact absurd hbytes (by decide)
  · apply slack_is_not_read.2 true _ _ 0 ⟨0x10, 0x20, 0x40, 0⟩
    · rw [size_emptyNodeBefore, size_emptyNodeBefore]
      rfl
    · exact decode?_emptyNodeBefore _
    · exact decode?_emptyNodeBefore _
    · rw [size_emptyNodeBefore, emptyNodeBefore, emptyNodeBefore, Buffer.toList_ofList,
        Buffer.toList_ofList]
      decide +kernel

end Ntfs
