import Ntfs.Proofs.Content.Shift
import Ntfs.Proofs.Content.Shortage
import Ntfs.Proofs.Table.Invariant

/-!
# Where a volume starts does not matter

The byte at which a volume starts enters the reading of its boot sector, of the first record of its
file table and of every cluster, and the comparison of each with the end of the disk.  Behind
padding of any length a volume is still the same to a caller: it opens or fails to open alike, gives
the same file tables, and the same content of every stream (`openAt_behind_padding`).
-/

namespace Ntfs

open Trace

namespace Table

open Content (SameClusters)

variable {d d' : Disk} {g g' : Geometry}

/-- An attribute is loaded alike from disks with the same clusters. -/
theorem loadAttribute_alike (h : SameClusters d g d' g') (r : Record) (a : Attribute) :
    Alike (loadAttribute d g r a) (loadAttribute d' g' r a) := by
  rw [loadAttribute, loadAttribute]
  by_cases hneeds : needsLoading a = true
  · rw [if_pos hneeds, if_pos hneeds]
    apply (Content.ofAttribute_alike h r.id a).attempt_andThen
    · intro content
      exact Alike.refl _
    · intro e e' _
      apply Alike.andThen
      · exact Alike.warn rfl
      · intro _
        exact Alike.refl (Trace.done a)
  · rw [if_neg hneeds, if_neg hneeds]
    exact Alike.refl _

theorem loadRecord_alike (h : SameClusters d g d' g') (r : Record) :
    Alike (loadRecord d g r) (loadRecord d' g' r) :=
  (Alike.mapM (loadAttribute_alike h r) r.attributes).andThen fun _ => Alike.refl _

/-- A table is built alike from disks with the same clusters. -/
theorem build_alike (h : SameClusters d g d' g') (range : Option (Nat × Nat)) (raw : Buffer) :
    Alike (build ⟨range, some (d, g)⟩ raw) (build ⟨range, some (d', g')⟩ raw) := by
  rw [build, build]
  apply (Alike.refl _).andThen
  intro range
  apply (Alike.refl _).andThen
  intro _
  exact (Alike.mapM (loadRecord_alike h) _).andThen fun _ => Alike.refl _

end Table

namespace Content

variable {d d' : Disk} {g g' : Geometry}

/-- The first byte of a cluster, on a disk whose bytes all have an address. -/
theorem firstByte?_eq {disk : Disk} (hsize : disk.size ≤ maxWord) (g : Geometry) (lcn : Nat) :
    firstByte? disk g lcn =
      if g.start + lcn * g.clusterSize < disk.size then some (g.start + lcn * g.clusterSize)
      else none := by
  rw [firstByte?, Geometry.clusterOffset?, Nat.add_comm _ g.start]
  by_cases hinside : g.start + lcn * g.clusterSize < disk.size
  · have haddress : lcn * g.clusterSize ≤ maxWord ∧ g.start + lcn * g.clusterSize ≤ maxWord := by
      omega
    rw [if_pos hinside, if_pos haddress]
    exact Option.filter_eq_some_iff.mpr ⟨rfl, decide_eq_true hinside⟩
  · rw [if_neg hinside, Option.filter_eq_none_iff]
    intro offset hoffset hlt
    split at hoffset
    · cases hoffset
      exact hinside (of_decide_eq_true hlt)
    · cases hoffset

/-- Clusters of one size are the same wherever the same bytes follow the start of the volume. -/
theorem sameClusters_of_sameFrom (h : d.SameFrom g.start d' g'.start)
    (hclusterSize : g.clusterSize = g'.clusterSize) (hsize : d.size ≤ maxWord)
    (hsize' : d'.size ≤ maxWord) : SameClusters d g d' g' := by
  refine ⟨hclusterSize, fun lcn => ?_⟩
  rw [firstByte?_eq hsize, firstByte?_eq hsize', ← hclusterSize]
  have hrest := h.rest_eq
  by_cases hinside : g.start + lcn * g.clusterSize < d.size
  · have hinside' : g'.start + lcn * g.clusterSize < d'.size := by omega
    rw [if_pos hinside, if_pos hinside']
    exact .inr ⟨_, _, rfl, rfl, h.advance _⟩
  · have houtside' : ¬g'.start + lcn * g.clusterSize < d'.size := by omega
    rw [if_neg hinside, if_neg houtside']
    exact .inl ⟨rfl, rfl⟩

end Content

namespace Disk

theorem size_padded (pad img : Buffer) :
    (ofBuffer (pad ++ img)).size = pad.size + (ofBuffer img).size := by
  show (pad ++ img).size = pad.size + img.size
  rw [← Buffer.length_toList, Buffer.toList_append, List.length_append, Buffer.length_toList,
    Buffer.length_toList]

/-- Behind padding a disk is the same as without. -/
theorem sameFrom_padded (pad img : Buffer) :
    (ofBuffer (pad ++ img)).SameFrom pad.size (ofBuffer img) 0 := by
  constructor
  · rw [size_padded, Nat.add_sub_cancel_left, Nat.sub_zero]
  · intro further length
    apply congrArg Except.ok
    ext1
    rw [Buffer.toList_slice, Buffer.toList_slice, Buffer.toList_append, Nat.zero_add,
      Nat.add_assoc, ← Buffer.length_toList, List.take_length_add_append,
      List.drop_length_add_append]

/-- Nothing is read past the end. -/
def EndsAtSize (d : Disk) : Prop :=
  ∀ offset length, d.size ≤ offset → d.readAt offset length = .ok .empty

theorem endsAtSize_ofBuffer (data : Buffer) : (ofBuffer data).EndsAtSize := by
  intro offset length hpast
  have hsize : data.size ≤ offset := hpast
  apply congrArg Except.ok
  ext1
  rw [Buffer.toList_slice, Buffer.toList_empty]
  apply List.drop_eq_nil_of_le
  rw [List.length_take, Buffer.length_toList]
  omega

end Disk

namespace Content

variable {disk : Disk} {g : Geometry} {lcn : Nat}

theorem clusterOffset?_of_firstByte? {start : Nat} (h : firstByte? disk g lcn = some start) :
    g.clusterOffset? lcn = some start :=
  (Option.filter_eq_some_iff.mp h).1

theorem size_le_of_clusterOffset? {offset : Nat} (h : firstByte? disk g lcn = none)
    (hoffset : g.clusterOffset? lcn = some offset) : disk.size ≤ offset := by
  rw [firstByte?, Option.filter_eq_none_iff] at h
  exact Nat.not_lt.mp fun hlt => h offset hoffset (decide_eq_true hlt)

end Content

namespace Volume

/-- A volume and the same one in another place: the boot sectors are the same, and so are the
clusters they tell of. -/
structure Shifted (v v' : Volume) : Prop where
  boot_eq : v.boot = v'.boot
  sameClusters : Content.SameClusters v.disk v.geometry v'.disk v'.geometry
  endsAtSize : v.disk.EndsAtSize
  endsAtSize' : v'.disk.EndsAtSize

def recordFrom (v : Volume) (offset : Nat) : Trace Record :=
  (v.disk.read offset Record.size).andThen fun raw =>
    if (Record.parse 0 raw).isValid then .done (Record.parse 0 raw) else .fail (.noRecord offset)

theorem tableRecord_of_clusterOffset? {v : Volume} {offset : Nat}
    (h : v.geometry.clusterOffset? v.boot.tableCluster.toNat = some offset) :
    v.tableRecord = v.recordFrom offset := by
  rw [tableRecord, h]
  rfl

/-- Where the disk has ended there is no record. -/
theorem recordFrom_alike_fail {v : Volume} (hends : v.disk.EndsAtSize) {offset : Nat}
    (hpast : v.disk.size ≤ offset) : Alike (v.recordFrom offset) (.fail (.noRecord offset)) := by
  have hempty : (v.disk.read offset Record.size).result = .ok .empty :=
    Trace.read_result_eq_ok_iff.mpr (hends offset Record.size hpast)
  have hinvalid : ¬(Record.parse 0 .empty).isValid = true := by decide
  rw [recordFrom, andThen_of_ok hempty, if_neg hinvalid]
  exact ⟨rfl, rfl, rfl⟩

/-- Without a place for it on the disk, there is no first record of the file table. -/
theorem exists_tableRecord_alike_fail {v : Volume} (hends : v.disk.EndsAtSize)
    (h : Content.firstByte? v.disk v.geometry v.boot.tableCluster.toNat = none) :
    ∃ e, e.kind = .bootSector ∧ Alike v.tableRecord (.fail e) := by
  cases hoffset : v.geometry.clusterOffset? v.boot.tableCluster.toNat with
  | none =>
      refine ⟨.bootSector (.tableCluster v.boot.tableCluster), rfl, Alike.of_eq ?_⟩
      rw [tableRecord, hoffset]
  | some offset =>
      refine ⟨.noRecord offset, rfl, ?_⟩
      rw [tableRecord_of_clusterOffset? hoffset]
      exact recordFrom_alike_fail hends (Content.size_le_of_clusterOffset? h hoffset)

section Shifted

variable {v v' : Volume}

/-- The first record of the file table is found in both places, or in neither for the same kind of reason.
-/
theorem tableRecord_alike (h : v.Shifted v') : Alike v.tableRecord v'.tableRecord := by
  rcases h.sameClusters.place v.boot.tableCluster.toNat with
    ⟨hnone, hnone'⟩ | ⟨start, start', hstart, hstart', hsame⟩
  · rw [h.boot_eq] at hnone'
    obtain ⟨e, hkind, hfail⟩ := exists_tableRecord_alike_fail h.endsAtSize hnone
    obtain ⟨e', hkind', hfail'⟩ := exists_tableRecord_alike_fail h.endsAtSize' hnone'
    exact hfail.trans ((Alike.fail (hkind.trans hkind'.symm)).trans hfail'.symm)
  · have hoffset' := Content.clusterOffset?_of_firstByte? hstart'
    rw [h.boot_eq] at hoffset'
    rw [tableRecord_of_clusterOffset? (Content.clusterOffset?_of_firstByte? hstart),
      tableRecord_of_clusterOffset? hoffset', recordFrom, recordFrom]
    apply (hsame.read_alike _).andThen
    intro raw
    by_cases hvalid : (Record.parse 0 raw).isValid = true
    · rw [if_pos hvalid, if_pos hvalid]
      exact Alike.refl _
    · rw [if_neg hvalid, if_neg hvalid]
      exact Alike.fail rfl

/-- The file table is read alike in both places. -/
theorem readTable_alike (h : v.Shifted v') : Alike v.readTable v'.readTable := by
  rw [readTable, readTable]
  apply (tableRecord_alike h).andThen
  intro record
  apply (Alike.refl _).andThen
  intro _
  cases record.stream? none with
  | none => exact Alike.refl _
  | some content => exact Content.ofAttribute_alike h.sameClusters record.id content

theorem table_alike (h : v.Shifted v') (range : Option (Nat × Nat)) :
    Alike (v.table range) (v'.table range) :=
  (readTable_alike h).andThen fun raw => Table.build_alike h.sameClusters range raw

theorem content_alike (h : v.Shifted v') (t : Table) (id : Nat) (key : StreamKey) :
    Alike (v.content t id key) (v'.content t id key) :=
  Content.ofStream_alike h.sameClusters t id key

end Shifted

/-- The boot sector of the volume that starts at a byte of the disk, if it can be opened. -/
def bootAt (disk : Disk) (start : Nat) : Trace BootSector := do
  let sector ← disk.read start BootSector.size
  let boot ← Trace.ofExcept ((BootSector.decode sector.toList).mapError Failure.bootSector)
  let recordSize := boot.recordSize?.getD 0
  if recordSize = Record.size then return boot else Trace.fail (.recordSize recordSize)

theorem openAt_eq_map (disk : Disk) (start : Nat) :
    openAt disk start = (bootAt disk start).map fun boot => ⟨boot, disk, boot.geometry start⟩ := by
  rw [openAt, bootAt]
  simp only [bind_eq_andThen, andThen_map]
  congr 1
  funext sector
  congr 1
  funext boot
  split <;> rfl

/-- A boot sector is accepted in both places or refused in both. -/
theorem bootAt_alike {d d' : Disk} {start start' : Nat} (h : d.SameFrom start d' start') :
    Alike (bootAt d start) (bootAt d' start') :=
  (h.read_alike _).andThen fun _ => Alike.refl _

/-- Behind padding a volume is the same to a caller.  Either it can be opened nowhere, for the same
kind of reason, or it can be opened in both places; then the reading of its file table, whatever the
range, ends alike and with warnings on the same records, and so does the reading of every stream. -/
theorem openAt_behind_padding (pad img : Buffer) (hfit : pad.size + img.size < 0x8000000000000000) :
    (∃ e e', (openAt (.ofBuffer (pad ++ img)) pad.size).result = .error e ∧
        (openAt (.ofBuffer img) 0).result = .error e' ∧ e.kind = e'.kind) ∨
      ∃ v v', (openAt (.ofBuffer (pad ++ img)) pad.size).result = .ok v ∧
        (openAt (.ofBuffer img) 0).result = .ok v' ∧
        (∀ range, Alike (v.table range) (v'.table range)) ∧
        ∀ t id key, Alike (v.content t id key) (v'.content t id key) := by
  have hsame := Disk.sameFrom_padded pad img
  have hword : pad.size + (Disk.ofBuffer img).size ≤ maxWord := Nat.le_of_lt (by
    calc pad.size + img.size < 0x8000000000000000 := hfit
      _ < maxWord := by decide)
  have hsize : (Disk.ofBuffer (pad ++ img)).size ≤ maxWord := by rwa [Disk.size_padded]
  have hsize' : (Disk.ofBuffer img).size ≤ maxWord := Nat.le_trans (Nat.le_add_left _ _) hword
  rw [openAt_eq_map, openAt_eq_map]
  rcases (bootAt_alike hsame).cases_result with ⟨boot, hboot, hboot'⟩ | ⟨e, e', he, he', hkind⟩
  · have hshifted : Shifted ⟨boot, .ofBuffer (pad ++ img), boot.geometry pad.size⟩
        ⟨boot, .ofBuffer img, boot.geometry 0⟩ :=
      ⟨rfl, Content.sameClusters_of_sameFrom hsame rfl hsize hsize',
        Disk.endsAtSize_ofBuffer _, Disk.endsAtSize_ofBuffer _⟩
    exact .inr ⟨_, _, map_result_eq_ok_iff.mpr ⟨boot, hboot, rfl⟩,
      map_result_eq_ok_iff.mpr ⟨boot, hboot', rfl⟩, table_alike hshifted, content_alike hshifted⟩
  · refine .inl ⟨e, e', ?_, ?_, hkind⟩
    · rw [Trace.map, he]
      rfl
    · rw [Trace.map, he']
      rfl

/-! ## A volume of one record -/

open Content (filled recordBytes recordOf parse_recordBytes)
open Table (nameBytes nameAttribute)

/-- The boot sector of a volume with one sector to a cluster, whose file table starts in the second one. -/
def bootBytes : Bytes :=
  List.replicate 3 0 ++ [0x4E, 0x54, 0x46, 0x53, 0x20, 0x20, 0x20, 0x20, 0, 2, 1] ++
    List.replicate 34 0 ++ [1] ++ List.replicate 15 0 ++ [0xF6] ++ List.replicate 447 0

def bootSector : BootSector := ⟨BootSector.ntfsId, 0x200, 1, 0, 1, 0, -10, 0, 0, 0⟩

/-- The name `MFT` in the directory of record 0, and content in the second and the third cluster. -/
def tableBytes : Bytes :=
  recordBytes (nameBytes 0 [0x4D, 0x46, 0x54] ++
    (filled 8 [0x80, 0, 0, 0, 0x48] ++ filled 8 [1] ++ filled 8 [0] ++ filled 8 [1] ++
      filled 8 [0x40] ++ filled 8 [0, 4] ++ filled 8 [0, 4] ++ filled 8 [0, 4] ++
      filled 8 [0x11, 2, 1]))

/-- Behind the boot sector stands a file table that holds nothing but the record about itself. -/
def volumeBytes : Bytes := bootBytes ++ tableBytes

def tableContent : Attribute where
  header := ⟨.data, 0x48, true, 0, 0, 0, 0, none⟩
  residency := .nonResident ⟨0, 1, 0x40, 0, 0x400, 0x400, 0x400, ⟨[⟨2, 1, some 1⟩], true, none⟩⟩
  body := .data []

def tableFile : Record := recordOf 0 [nameAttribute 0 3 "MFT", tableContent] none

def volume : Volume := ⟨bootSector, .ofBuffer (.ofList volumeBytes), bootSector.geometry 0⟩

theorem bootAt_volumeBytes :
    (bootAt (.ofBuffer (.ofList volumeBytes)) 0).result = .ok bootSector := by
  have hread := Disk.readAt_ofList volumeBytes 0 BootSector.size
  have hfront : (volumeBytes.take (0 + BootSector.size)).drop 0 = bootBytes := by decide +kernel
  rw [hfront] at hread
  have hdecode : BootSector.decode bootBytes = .ok bootSector := by
    have hlength : ¬bootBytes.length < BootSector.size := by decide +kernel
    have hfields : BootSector.ofBytes bootBytes = bootSector := by decide +kernel
    have hsound : bootSector.fault? = none := by decide +kernel
    rw [BootSector.decode, if_neg hlength]
    simp only [hfields, hsound]
  have hrecordSize : bootSector.recordSize?.getD 0 = Record.size := by decide +kernel
  apply andThen_result_eq_ok_iff.mpr
  refine ⟨.ofList bootBytes, Trace.read_result_eq_ok_iff.mpr hread, ?_⟩
  rw [Buffer.toList_ofList, hdecode]
  apply andThen_result_eq_ok_iff.mpr
  refine ⟨bootSector, rfl, ?_⟩
  simp only [if_pos hrecordSize]
  rfl

theorem openAt_volumeBytes : (openAt (.ofBuffer (.ofList volumeBytes)) 0).result = .ok volume := by
  rw [openAt_eq_map]
  exact map_result_eq_ok_iff.mpr ⟨bootSector, bootAt_volumeBytes, rfl⟩

theorem parse_tableBytes : Record.parse 0 (.ofList tableBytes) = tableFile :=
  parse_recordBytes 0 (by decide +kernel)

theorem attributeContent_tableContent :
    Content.attributeContent volume.disk volumeBytes volume.geometry tableContent = tableBytes := by
  have hsize : volume.disk.size = 1536 := by
    rw [volume, Disk.ofBuffer, Buffer.size_ofList]
    decide +kernel
  have hstart : Content.firstByte? volume.disk volume.geometry (1 : UInt64).toNat = some 512 := by
    rw [Content.firstByte?, show volume.geometry.clusterOffset? (1 : UInt64).toNat = some 512 by
      decide +kernel, hsize]
    rfl
  have hlength : min ((2 : UInt64).toNat * volume.geometry.clusterSize) (1536 - 512) = 1024 := by
    decide +kernel
  have hbytes : (volumeBytes.drop 512).take 1024 = tableBytes := by decide +kernel
  have hruns : Content.runsOf tableContent = [⟨2, 1, some 1⟩] := rfl
  rw [Content.attributeContent_eq rfl, hruns, Content.runsContent, Content.runsContent, ite_self,
    List.append_nil, Content.runContent_of_inside rfl hstart, hsize, hlength, hbytes]

theorem holds_volume : volume.disk.Holds volumeBytes := Disk.holds_ofList volumeBytes

theorem length_tableBytes : tableBytes.length = Record.size := by decide +kernel

theorem take_tableBytes : tableBytes.take 1024 = tableBytes :=
  List.take_of_length_le (Nat.le_of_eq length_tableBytes)

theorem readTable_volume : volume.readTable.result = .ok (.ofList tableBytes) := by
  have hread := Disk.readAt_ofList volumeBytes 512 Record.size
  have hbehind : (volumeBytes.take (512 + Record.size)).drop 512 = tableBytes := by
    rw [show 512 + Record.size = 1536 from rfl]
    decide +kernel
  rw [hbehind] at hread
  have hvalid : (Record.parse 0 (.ofList tableBytes)).isValid = true := by
    rw [parse_tableBytes]
    decide +kernel
  have hoffset : volume.geometry.clusterOffset? volume.boot.tableCluster.toNat = some 512 := by
    decide +kernel
  have hrecord := (tableRecord_of_readAt hoffset hread hvalid).1
  rw [parse_tableBytes] at hrecord
  have hstream : tableFile.stream? none = some tableContent := by decide +kernel
  have hcontent := Content.ofAttribute_result (g := volume.geometry) holds_volume
    (Disk.neverFails_ofBuffer _) tableFile.id
    (fun hresident : tableContent.isNonResident = false => nomatch hresident)
  rw [attributeContent_tableContent] at hcontent
  rw [(readTable_of_tableRecord hrecord hstream).1, hcontent]
  exact congrArg (Except.ok ∘ Buffer.ofList) take_tableBytes

/-- The table of the one record, which is its own parent. -/
def fileTable : Table := ⟨#[{ tableFile with parent := some 0 }]⟩

theorem parseRecords_tableBytes :
    Table.parseRecords (0, 1) (Table.stored (.ofList tableBytes)) = [tableFile] := by
  have hone : ∀ r ∈ [tableBytes], r.length = Record.size := by
    intro r hr
    rw [List.mem_singleton.mp hr, length_tableBytes]
  have hstored := Table.stored_flatten hone
  rw [List.flatten_singleton] at hstored
  rw [hstored, ← parse_tableBytes]
  rfl

theorem table_volume : (volume.table none).result = .ok fileTable := by
  have hrange : Table.rangeOf none ((Buffer.ofList tableBytes).size / Record.size) = .ok (0, 1) := by
    rw [Buffer.size_ofList, length_tableBytes]
    rfl
  have hkept : ∀ r ∈ [tableFile], ∀ a ∈ r.attributes, Table.needsLoading a = false := by
    decide +kernel
  rw [← parseRecords_tableBytes] at hkept
  have hbuilt : (Table.build ⟨none, some (volume.disk, volume.geometry)⟩
      (.ofList tableBytes)).result = _ := Table.build_result_of_kept hrange hkept
  rw [table, bind_eq_andThen, andThen_result_eq_ok_iff]
  refine ⟨.ofList tableBytes, readTable_volume, ?_⟩
  rw [hbuilt, parseRecords_tableBytes]
  exact congrArg Except.ok (by decide +kernel)

theorem content_volume :
    (volume.content fileTable 0 .content).result = .ok (.ofList tableBytes) := by
  have hmatching : Content.matching fileTable 0 .content = [tableContent] := by decide +kernel
  have hne : Content.matching fileTable 0 .content ≠ [] := by
    rw [hmatching]
    exact List.cons_ne_nil _ _
  have hid : 0 < fileTable.size := by decide
  have hsucceeds := Content.walkStream_succeeds (g := volume.geometry) holds_volume
    (Disk.neverFails_ofBuffer _) hid hne (by simp [hmatching, tableContent])
  rw [content, Content.ofStream_result_of_succeeds holds_volume hid hne hsucceeds, hmatching,
    List.flatMap_singleton, attributeContent_tableContent]
  exact congrArg (Except.ok ∘ Buffer.ofList) take_tableBytes

/-- A volume behind five bytes, which are not even a sector.  In both places its file table is read and
built, and the content of its one record is that record. -/
theorem openAt_behind_padding_volumeBytes :
    (Buffer.ofList [1, 2, 3, 4, 5]).size + (Buffer.ofList volumeBytes).size < 0x8000000000000000 ∧
      ∃ v, (openAt (.ofBuffer (.ofList [1, 2, 3, 4, 5] ++ .ofList volumeBytes))
          (Buffer.ofList [1, 2, 3, 4, 5]).size).result = .ok v ∧
        (openAt (.ofBuffer (.ofList volumeBytes)) 0).result = .ok volume ∧
        ((v.table none).result = .ok fileTable ∧ (volume.table none).result = .ok fileTable) ∧
        ((v.content fileTable 0 .content).result = .ok (.ofList tableBytes) ∧
          (volume.content fileTable 0 .content).result = .ok (.ofList tableBytes)) ∧
        (∀ range, Alike (v.table range) (volume.table range)) ∧
        ∀ t id key, Alike (v.content t id key) (volume.content t id key) := by
  have hfit : (Buffer.ofList [1, 2, 3, 4, 5]).size + (Buffer.ofList volumeBytes).size <
      0x8000000000000000 := by
    rw [Buffer.size_ofList, Buffer.size_ofList]
    decide +kernel
  refine ⟨hfit, ?_⟩
  rcases openAt_behind_padding (.ofList [1, 2, 3, 4, 5]) (.ofList volumeBytes) hfit with
    ⟨_, e', _, he', _⟩ | ⟨v, v', hv, hv', htable, hcontent⟩
  · rw [openAt_volumeBytes] at he'
    cases he'
  · obtain rfl : volume = v' := Except.ok.inj (openAt_volumeBytes.symm.trans hv')
    exact ⟨v, hv, hv', ⟨(htable none).result_eq_ok_iff.mpr table_volume, table_volume⟩,
      ⟨(hcontent _ _ _).result_eq_ok_iff.mpr content_volume, content_volume⟩, htable, hcontent⟩

end Volume

end Ntfs
