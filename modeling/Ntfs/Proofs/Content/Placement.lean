import Mathlib.Data.List.Nodup
import Ntfs.Proofs.Content.Position
import Ntfs.Proofs.Content.Stream
import Ntfs.Proofs.Table.Build

/-!
# Extents that come out of order

An attribute of a stream says at which cluster of the stream its runs start.  Reading does not look
at that: it hands over the attributes in the order of the chain, each from where the one before it
ended.  So a byte of the content is one that the stream holds, but at the position that its
attribute gives it.  It stands at that position too when the attributes in front are those that
start at a lower cluster, and when all of them came whole.
-/

namespace Ntfs.Content

open RunList (clusters)

variable {disk : Disk} {contents : Bytes} {g : Geometry}

/-- The cluster of the stream at which the runs of an attribute start. -/
def firstVcn (a : Attribute) : Nat :=
  match a.residency with
  | .resident _ => 0
  | .nonResident form => form.startVcn.toNat

def runsOf (a : Attribute) : List Run :=
  match a.residency with
  | .resident _ => []
  | .nonResident form => form.runList.runs

/-- An attribute holds a cluster of the stream. -/
def Covers (a : Attribute) (vcn : Nat) : Prop :=
  firstVcn a ≤ vcn ∧ vcn < firstVcn a + clusters (runsOf a)

/-- Each of the first `total` clusters of a stream, and no other, is held by one attribute. -/
structure Tiles (found : List Attribute) (total : Nat) : Prop where
  nonResident : ∀ a ∈ found, a.isNonResident = true
  disjoint : found.Pairwise fun left right => ∀ vcn, ¬ (Covers left vcn ∧ Covers right vcn)
  covers : ∀ vcn, vcn < total ↔ ∃ a ∈ found, Covers a vcn

/-- What runs hold at a position: zero if the run that covers its cluster is sparse, and else the
byte on the disk at the same place of the cluster that the run has there. -/
def RunsHold (contents : Bytes) (g : Geometry) (runs : List Run) (position : Nat) (byte : UInt8) :
    Prop :=
  ∃ before r after, runs = before ++ r :: after ∧
    clusters before ≤ position / g.clusterSize ∧
    position / g.clusterSize < clusters before + r.length.toNat ∧
    (r.lcn = none → byte = 0) ∧
    ∀ lcn, r.lcn = some lcn →
      contents[g.start + (lcn.toNat + (position / g.clusterSize - clusters before)) *
        g.clusterSize + position % g.clusterSize]? = some byte

/-- What a stream holds at a position: an attribute has its cluster, and whichever does holds the
byte there. -/
def StreamHolds (contents : Bytes) (g : Geometry) (found : List Attribute) (position : Nat)
    (byte : UInt8) : Prop :=
  (∃ a ∈ found, Covers a (position / g.clusterSize)) ∧
  ∀ a ∈ found, Covers a (position / g.clusterSize) →
    RunsHold contents g (runsOf a) (position - firstVcn a * g.clusterSize) byte

def vcns (a : Attribute) : List Nat := List.range' (firstVcn a) (clusters (runsOf a))

/-- Of the attributes that hold clusters, the ones in front of an attribute start at a lower cluster
of the stream, and the ones behind it at a higher one. -/
structure InPlace (before : List Attribute) (a : Attribute) (after : List Attribute) : Prop where
  before_lt : ∀ b ∈ before, 0 < clusters (runsOf b) → firstVcn b < firstVcn a
  lt_after : ∀ b ∈ after, 0 < clusters (runsOf b) → firstVcn a < firstVcn b

/-- All clusters of an attribute can be read. -/
def CameWhole (disk : Disk) (contents : Bytes) (g : Geometry) (a : Attribute) : Prop :=
  (attributeContent disk contents g a).length = clusters (runsOf a) * g.clusterSize

theorem attributeContent_eq {a : Attribute} (h : a.isNonResident = true) :
    attributeContent disk contents g a = runsContent disk contents g (runsOf a) := by
  unfold attributeContent runsOf
  cases hresidency : a.residency with
  | resident form => simp [Attribute.isNonResident, Attribute.nonResident?, hresidency] at h
  | nonResident form => rfl

/-- A cluster of a stream is held by one of its attributes only. -/
theorem eq_of_covers {found : List Attribute} {total vcn : Nat} (htiles : Tiles found total)
    {left right : Attribute} (hleft : left ∈ found) (hright : right ∈ found)
    (hl : Covers left vcn) (hr : Covers right vcn) : left = right := by
  have hdisjoint := htiles.disjoint
  clear htiles
  induction found with
  | nil => cases hleft
  | cons a rest ih =>
      obtain ⟨hfirst, hrest⟩ := List.pairwise_cons.mp hdisjoint
      rcases List.mem_cons.mp hleft with rfl | hleftRest
      · rcases List.mem_cons.mp hright with rfl | hrightRest
        · rfl
        · exact absurd ⟨hl, hr⟩ (hfirst right hrightRest vcn)
      · rcases List.mem_cons.mp hright with rfl | hrightRest
        · exact absurd ⟨hr, hl⟩ (hfirst left hleftRest vcn)
        · exact ih hleftRest hrightRest hrest

/-- A byte of several contents in one piece belongs to one of them. -/
theorem exists_part_of_getElem? {f : Attribute → Bytes} {found : List Attribute} {position : Nat}
    {byte : UInt8} (h : (found.flatMap f)[position]? = some byte) :
    ∃ before a after, found = before ++ a :: after ∧ (before.flatMap f).length ≤ position ∧
      (f a)[position - (before.flatMap f).length]? = some byte := by
  induction found generalizing position with
  | nil => simp at h
  | cons a rest ih =>
      rw [List.flatMap_cons, List.getElem?_append] at h
      split at h
      · exact ⟨[], a, rest, rfl, Nat.zero_le _, h⟩
      · rename_i hpast
        obtain ⟨before, a', after, rfl, hle, hbyte⟩ := ih h
        refine ⟨a :: before, a', after, rfl, ?_, ?_⟩
        · rw [List.flatMap_cons, List.length_append]
          omega
        · rw [List.flatMap_cons, List.length_append, ← Nat.sub_sub]
          exact hbyte

/-- A byte of the content of runs is the one that they hold at its position. -/
theorem runsHold_of_getElem? (hc : 0 < g.clusterSize) {runs : List Run} {position : Nat}
    {byte : UInt8} (h : (runsContent disk contents g runs)[position]? = some byte) :
    RunsHold contents g runs position byte := by
  obtain ⟨before, r, after, hruns, hfrom, hto, hsparse, hstored⟩ := exists_run_covering hc h
  refine ⟨before, r, after, hruns, hfrom, hto, hsparse, fun lcn hlcn => ?_⟩
  obtain ⟨address, rfl, hcontents, -⟩ := hstored lcn hlcn
  exact hcontents

theorem covers_of_getElem? (hc : 0 < g.clusterSize) {a : Attribute} (ha : a.isNonResident = true)
    {place : Nat} {byte : UInt8} (h : (attributeContent disk contents g a)[place]? = some byte) :
    Covers a ((firstVcn a * g.clusterSize + place) / g.clusterSize) := by
  rw [attributeContent_eq ha] at h
  obtain ⟨before, r, after, hruns, -, hto, -⟩ := exists_run_covering hc h
  rw [(position_in_run (firstVcn a) place hc).1, Covers, hruns, RunList.clusters_append,
    RunList.clusters_cons]
  exact ⟨Nat.le_add_right _ _, by omega⟩

/-- A byte that an attribute supplies is held by the stream where the attribute starts, and as far
on as it stands in the content of the attribute. -/
theorem streamHolds_of_getElem? (hc : 0 < g.clusterSize) {found : List Attribute} {total : Nat}
    (htiles : Tiles found total) {a : Attribute} (ha : a ∈ found) {place : Nat} {byte : UInt8}
    (h : (attributeContent disk contents g a)[place]? = some byte) :
    StreamHolds contents g found (firstVcn a * g.clusterSize + place) byte := by
  have hcovers := covers_of_getElem? hc (htiles.nonResident a ha) h
  refine ⟨⟨a, ha, hcovers⟩, fun a' ha' hcovers' => ?_⟩
  obtain rfl := eq_of_covers htiles ha' ha hcovers' hcovers
  rw [attributeContent_eq (htiles.nonResident a' ha')] at h
  rw [Nat.add_sub_cancel_left]
  exact runsHold_of_getElem? hc h

theorem mem_vcns {a : Attribute} {vcn : Nat} : vcn ∈ vcns a ↔ Covers a vcn := List.mem_range'_1

theorem Covers.clusters_pos {a : Attribute} {vcn : Nat} (h : Covers a vcn) :
    0 < clusters (runsOf a) := by
  obtain ⟨hfrom, hto⟩ := h
  omega

theorem covers_firstVcn {a : Attribute} (h : 0 < clusters (runsOf a)) : Covers a (firstVcn a) :=
  ⟨Nat.le_refl _, Nat.lt_add_of_pos_right h⟩

/-- The attributes in front of one that is in place hold exactly the clusters below its first. -/
theorem vcns_before_of_inPlace {before after : List Attribute} {a : Attribute} {total : Nat}
    (htiles : Tiles (before ++ a :: after) total) (hpos : 0 < clusters (runsOf a))
    (hplace : InPlace before a after) (vcn : Nat) :
    vcn ∈ before.flatMap vcns ↔ vcn < firstVcn a := by
  have hmem : a ∈ before ++ a :: after := by simp
  simp only [List.mem_flatMap, mem_vcns]
  constructor
  · rintro ⟨b, hb, hcovers⟩
    have hlt := hplace.before_lt b hb hcovers.clusters_pos
    by_contra hge
    have hboth : Covers b (firstVcn a) := ⟨by omega, by have := hcovers.2; omega⟩
    have heq := eq_of_covers htiles (List.mem_append_left _ hb) hmem hboth (covers_firstVcn hpos)
    rw [heq] at hlt
    exact Nat.lt_irrefl _ hlt
  · intro hlt
    have hfirst := (htiles.covers (firstVcn a)).mpr ⟨a, hmem, covers_firstVcn hpos⟩
    obtain ⟨b, hb, hcovers⟩ := (htiles.covers vcn).mp (Nat.lt_trans hlt hfirst)
    rcases List.mem_append.mp hb with hbefore | hrest
    · exact ⟨b, hbefore, hcovers⟩
    have hfrom := hcovers.1
    rcases List.mem_cons.mp hrest with rfl | hafter
    · omega
    · have := hplace.lt_after b hafter hcovers.clusters_pos
      omega

/-- In front of an attribute that is in place stand as many clusters as its first cluster tells. -/
theorem length_vcns_before_of_inPlace {before after : List Attribute} {a : Attribute} {total : Nat}
    (htiles : Tiles (before ++ a :: after) total) (hpos : 0 < clusters (runsOf a))
    (hplace : InPlace before a after) : (before.flatMap vcns).length = firstVcn a := by
  have hdisjoint : before.Pairwise fun left right => List.Disjoint (vcns left) (vcns right) := by
    refine (List.pairwise_append.mp htiles.disjoint).1.imp fun hleft vcn hl hr => ?_
    exact hleft vcn ⟨mem_vcns.mp hl, mem_vcns.mp hr⟩
  have hnodup : (before.flatMap vcns).Nodup :=
    List.nodup_flatMap.mpr ⟨fun b _ => List.nodup_range', hdisjoint⟩
  have hperm : (before.flatMap vcns).Perm (List.range (firstVcn a)) := by
    refine (List.perm_ext_iff_of_nodup hnodup List.nodup_range).mpr fun vcn => ?_
    rw [vcns_before_of_inPlace htiles hpos hplace, List.mem_range]
  rw [hperm.length_eq, List.length_range]

/-- Attributes that came whole take up all of their clusters. -/
theorem length_content_of_whole {before : List Attribute}
    (hwhole : ∀ b ∈ before, CameWhole disk contents g b) :
    (before.flatMap (attributeContent disk contents g)).length =
      (before.flatMap vcns).length * g.clusterSize := by
  induction before with
  | nil => simp
  | cons b rest ih =>
      have hb : (attributeContent disk contents g b).length = (vcns b).length * g.clusterSize := by
        rw [vcns, List.length_range']
        exact hwhole b List.mem_cons_self
      rw [List.flatMap_cons, List.flatMap_cons, List.length_append, List.length_append, Nat.add_mul,
        hb, ih fun b' hb' => hwhole b' (List.mem_cons_of_mem _ hb')]

/-! ## Two extents in either order -/

def filled (length : Nat) (front : Bytes) : Bytes :=
  front ++ List.replicate (length - front.length) 0

def recordBytes (attributes : Bytes) : Bytes :=
  filled Record.size
    (filled 0x14 [0x46, 0x49, 0x4C, 0x45] ++ filled 0x24 [0x38, 0, 1, 0] ++ attributes ++
      [0xFF, 0xFF, 0xFF, 0xFF])

/-- An extent of one cluster in a stream of two bytes. -/
def extentBytes (vcn lcn : UInt8) : Bytes :=
  filled 8 [0x80, 0, 0, 0, 0x48] ++ filled 8 [1] ++ filled 8 [vcn] ++ filled 8 [vcn] ++
    filled 8 [0x40] ++ filled 8 [2] ++ filled 8 [2] ++ filled 8 [2] ++ filled 8 [0x11, 1, lcn]

def listEntryBytes (vcn record : UInt8) : Bytes :=
  filled 8 [0x80, 0, 0, 0, 0x20] ++ filled 8 [vcn] ++ filled 16 [record]

def listBytes (entries : Bytes) : Bytes :=
  filled 16 [0x20, 0, 0, 0, 0x58] ++ [0x40, 0, 0, 0, 0x18, 0, 0, 0] ++ entries

def listedBytes : (swapped : Bool) → Bytes
  | true => listEntryBytes 1 2 ++ listEntryBytes 0 1
  | false => listEntryBytes 0 1 ++ listEntryBytes 1 2

/-- A stream of two clusters, which stand on the disk in reverse, each in a record of its own.  The
attribute list names the record of the second cluster first if `swapped` says so. -/
def splitRecords (swapped : Bool) : List Bytes := [
  recordBytes (listBytes (listedBytes swapped)),
  recordBytes (extentBytes 0 2),
  recordBytes (extentBytes 1 1)]

def extentAt (vcn lcn : UInt64) : Attribute where
  header := ⟨.data, 0x48, true, 0, 0, 0, 0, none⟩
  residency := .nonResident ⟨vcn, vcn, 0x40, 0, 2, 2, 2, ⟨[⟨1, lcn.toInt64, some lcn⟩], true, none⟩⟩
  body := .data []

def listEntryOf (vcn record : UInt64) : ListEntry := ⟨.data, 0x20, 0, 0, vcn, ⟨record, 0⟩, 0, none⟩

def listed : (swapped : Bool) → List ListEntry
  | true => [listEntryOf 1 2, listEntryOf 0 1]
  | false => [listEntryOf 0 1, listEntryOf 1 2]

def listOf (entries : List ListEntry) : Attribute where
  header := ⟨.attributeList, 0x58, false, 0, 0, 0, 0, none⟩
  residency := .resident ⟨0x40, 0x18, 0⟩
  body := .attributeList entries

def recordOf (index : UInt64) (attributes : List Attribute) (link : Option UInt64) : Record :=
  { Record.blank index (RecordHeader.decode ((recordBytes []).take RecordHeader.size)) with
    attributes, link }

def splitTable (swapped : Bool) : Table := ⟨#[
  recordOf 0 [listOf (listed swapped)] (some (if swapped then 2 else 1)),
  recordOf 1 [extentAt 0 2] (if swapped then none else some 2),
  recordOf 2 [extentAt 1 1] (if swapped then some 1 else none)]⟩

/-- A record is parsed to the attributes that its bytes are read to, if these are read without a note. -/
theorem parse_recordBytes (index : UInt64) {bytes : Bytes} {attributes : List Attribute}
    (hclean : Record.attributesFrom 0x38 (((recordBytes bytes).take Record.size).drop 0x38) =
      .clean attributes) :
    Record.parse index (Buffer.ofList (recordBytes bytes)) = recordOf index attributes none := by
  have hheader : (recordBytes bytes).take RecordHeader.size =
      (recordBytes []).take RecordHeader.size := by
    simp only [recordBytes, filled, List.append_assoc]
    rfl
  have hvalid : (RecordHeader.decode ((recordBytes []).take RecordHeader.size)).signature ==
      RecordHeader.fileSignature := by
    decide +kernel
  have hstart : (RecordHeader.decode
      ((recordBytes []).take RecordHeader.size)).attributesOffset.toNat = 0x38 := by
    decide +kernel
  rw [Record.parse_of_unprotected index (by rw [hheader]; exact hvalid)
    (by rw [hheader]; decide +kernel)]
  simp only [hheader, hstart, hclean]
  rfl

theorem parse_splitRecords (swapped : Bool) :
    ((splitRecords swapped).map Buffer.ofList).zipIdx.map
      (fun (raw, index) => Record.parse (UInt64.ofNat index) raw) =
    [recordOf 0 [listOf (listed swapped)] none, recordOf 1 [extentAt 0 2] none,
      recordOf 2 [extentAt 1 1] none] := by
  have hlist : Record.parse 0 (Buffer.ofList (recordBytes (listBytes (listedBytes swapped)))) =
      recordOf 0 [listOf (listed swapped)] none :=
    parse_recordBytes 0 (by cases swapped <;> decide +kernel)
  have hfirst : Record.parse 1 (Buffer.ofList (recordBytes (extentBytes 0 2))) =
      recordOf 1 [extentAt 0 2] none :=
    parse_recordBytes 1 (by decide +kernel)
  have hsecond : Record.parse 2 (Buffer.ofList (recordBytes (extentBytes 1 1))) =
      recordOf 2 [extentAt 1 1] none :=
    parse_recordBytes 2 (by decide +kernel)
  rw [← hlist, ← hfirst, ← hsecond]
  rfl

theorem build_splitRecords (swapped : Bool) :
    (Table.build ⟨none, none⟩ (Buffer.ofList (splitRecords swapped).flatten)).result =
      .ok (splitTable swapped) := by
  have hsize : ∀ r ∈ splitRecords swapped, r.length = Record.size := by
    cases swapped <;> decide +kernel
  rw [Table.build_result_of_records hsize, parse_splitRecords]
  exact congrArg Except.ok (by cases swapped <;> decide +kernel)

theorem chain_splitTable (swapped : Bool) :
    (splitTable swapped).chain 0 = if swapped then [0, 2, 1] else [0, 1, 2] := by
  cases swapped <;>
    simp [Table.chain, trail, Table.size, splitTable, Table.link?, Table.get?, recordOf]

theorem matching_splitTable (swapped : Bool) :
    matching (splitTable swapped) 0 .content =
      if swapped then [extentAt 1 1, extentAt 0 2] else [extentAt 0 2, extentAt 1 1] := by
  rw [matching, Table.chainRecords, chain_splitTable]
  cases swapped <;> decide +kernel

theorem covers_extentAt {vcn lcn : UInt64} {cluster : Nat} :
    Covers (extentAt vcn lcn) cluster ↔ cluster = vcn.toNat := by
  simp only [Covers, firstVcn, runsOf, extentAt, RunList.clusters_cons, RunList.clusters_nil,
    UInt64.toNat_one]
  omega

theorem mem_matching_splitTable {swapped : Bool} {a : Attribute} :
    a ∈ matching (splitTable swapped) 0 .content ↔ a = extentAt 0 2 ∨ a = extentAt 1 1 := by
  rw [matching_splitTable]
  cases swapped
  · simp
  · simp [or_comm]

theorem tiles_splitTable (swapped : Bool) :
    Tiles (matching (splitTable swapped) 0 .content) 2 := by
  constructor
  · simp [mem_matching_splitTable, extentAt, Attribute.isNonResident, Attribute.nonResident?]
  · rw [matching_splitTable]
    cases swapped <;> simp [covers_extentAt]
  · simp only [mem_matching_splitTable, exists_eq_or_imp, exists_eq_left, covers_extentAt]
    intro vcn
    show vcn < 2 ↔ vcn = 0 ∨ vcn = 1
    omega

theorem ofStream_splitTable (swapped : Bool) (data : Bytes) :
    (ofStream (.ofBuffer (.ofList data)) ⟨0, 1, 1⟩ (splitTable swapped) 0 .content).result =
      .ok (.ofList (((matching (splitTable swapped) 0 .content).flatMap
        (attributeContent (.ofBuffer (.ofList data)) data ⟨0, 1, 1⟩)).take 2)) := by
  have hholds := Disk.holds_ofList data
  have hid : 0 < (splitTable swapped).size := by cases swapped <;> decide
  have hne : matching (splitTable swapped) 0 .content ≠ [] :=
    List.ne_nil_of_mem (mem_matching_splitTable.mpr (Or.inl rfl))
  have hsucceeds := walkStream_succeeds (g := ⟨0, 1, 1⟩) hholds (Disk.neverFails_ofBuffer _) hid hne
    (by simp [mem_matching_splitTable, extentAt])
  have hlength : declaredLength (matching (splitTable swapped) 0 .content) = 2 := by
    rw [matching_splitTable]
    cases swapped <;> decide
  rw [ofStream_result_of_succeeds hholds hid hne hsucceeds, hlength]

/-! ## Where the bytes of a stream stand -/

/-- Every byte read from a stream is one that the stream holds, at the position that the attribute
which supplies it gives it; and that is its position in the content if the attributes in front of
this one are those that start at a lower cluster, and all of them came whole. -/
theorem ofStream_byte_placed (hholds : disk.Holds contents) {t : Table} {id : Nat} {key : StreamKey}
    {total : Nat} (htiles : Tiles (matching t id key) total)
    (hpos : 0 < g.sectorsPerCluster * g.bytesPerSector)
    (hword : g.sectorsPerCluster * g.bytesPerSector ≤ maxWord) {out : Buffer}
    (hout : (ofStream disk g t id key).result = .ok out) :
    ∀ p < out.size, ∃ before a after, matching t id key = before ++ a :: after ∧
      (before.flatMap (attributeContent disk contents g)).length ≤ p ∧
      p < ((before ++ [a]).flatMap (attributeContent disk contents g)).length ∧
      StreamHolds contents g (matching t id key) (firstVcn a * g.clusterSize +
        (p - (before.flatMap (attributeContent disk contents g)).length)) (out.byte p) ∧
      (InPlace before a after → (∀ b ∈ before, CameWhole disk contents g b) →
        StreamHolds contents g (matching t id key) p (out.byte p)) := by
  intro p hp
  have hc : 0 < g.clusterSize := by rwa [clusterSize_eq hword]
  obtain ⟨⟨n, hn⟩, hbytes⟩ := Trace.collect_result_eq_ok_iff.mp hout
  have hid : id < t.size := by
    by_contra hge
    rw [walkStream_of_outside (Nat.not_lt.mp hge)] at hn
    cases hn
  have hne : matching t id key ≠ [] := by
    intro hnil
    rw [walkStream_of_nil hid hnil] at hn
    cases hn
  have hget := Buffer.getElem?_toList hp
  rw [hbytes, (walkStream_returns hholds hid hne n hn).1, List.getElem?_take] at hget
  obtain ⟨before, a, after, hfound, hle, hbyte⟩ :=
    exists_part_of_getElem? (Option.ite_none_right_eq_some.mp hget).2
  have ha : a ∈ matching t id key := by simp [hfound]
  have hholdsAt := streamHolds_of_getElem? hc htiles ha hbyte
  have hlt : p < ((before ++ [a]).flatMap (attributeContent disk contents g)).length := by
    have := (List.getElem?_eq_some_iff.mp hbyte).1
    rw [List.flatMap_append, List.flatMap_singleton, List.length_append]
    omega
  refine ⟨before, a, after, hfound, hle, hlt, hholdsAt, fun hplace hwhole => ?_⟩
  have hclusters := (covers_of_getElem? hc (htiles.nonResident a ha) hbyte).clusters_pos
  have hfront : firstVcn a * g.clusterSize =
      (before.flatMap (attributeContent disk contents g)).length := by
    rw [length_content_of_whole hwhole,
      length_vcns_before_of_inPlace (hfound ▸ htiles) hclusters hplace]
  rwa [hfront, Nat.add_sub_cancel' hle] at hholdsAt

/-- With the attributes swapped, the two bytes come in the order of the attributes, each from its cluster.
-/
theorem ofStream_byte_placed_splitTable :
    (Disk.ofBuffer (.ofList [0, 0xBB, 0xAA])).Holds [0, 0xBB, 0xAA] ∧
    Tiles (matching (splitTable true) 0 .content) 2 ∧
    ∃ out, (ofStream (.ofBuffer (.ofList [0, 0xBB, 0xAA])) ⟨0, 1, 1⟩ (splitTable true) 0
      .content).result = .ok out ∧ out.toList = [0xBB, 0xAA] ∧
      ∀ p < out.size, ∃ before a after,
        matching (splitTable true) 0 .content = before ++ a :: after ∧
        StreamHolds [0, 0xBB, 0xAA] ⟨0, 1, 1⟩ (matching (splitTable true) 0 .content)
          (firstVcn a + (p - (before.flatMap (attributeContent (.ofBuffer (.ofList [0, 0xBB, 0xAA]))
            [0, 0xBB, 0xAA] ⟨0, 1, 1⟩)).length)) (out.byte p) := by
  have hholds := Disk.holds_ofList [0, 0xBB, 0xAA]
  have hresult := ofStream_splitTable true [0, 0xBB, 0xAA]
  refine ⟨hholds, tiles_splitTable true, _, hresult, ?_, fun p hp => ?_⟩
  · rw [Buffer.toList_ofList, matching_splitTable]
    decide +kernel
  · obtain ⟨before, a, after, hfound, -, -, hplaced, -⟩ := ofStream_byte_placed hholds
      (tiles_splitTable true) (by decide) (by decide) hresult p hp
    refine ⟨before, a, after, hfound, ?_⟩
    rwa [show Geometry.clusterSize ⟨0, 1, 1⟩ = 1 from rfl, Nat.mul_one] at hplaced

theorem getElem?_of_streamHolds_splitTable {swapped : Bool} {byte : UInt8}
    (h : StreamHolds contents ⟨0, 1, 1⟩ (matching (splitTable swapped) 0 .content) 0 byte) :
    contents[2]? = some byte := by
  obtain ⟨before, r, after, hruns, -, -, -, hstored⟩ :=
    h.2 (extentAt 0 2) (mem_matching_splitTable.mpr (Or.inl rfl)) (covers_extentAt.mpr rfl)
  cases before with
  | nil =>
      cases hruns
      exact hstored 2 rfl
  | cons b rest =>
      have hlength := congrArg List.length hruns
      simp [runsOf, extentAt] at hlength

/-- Reading puts every byte of a stream where the stream has it, when the disk and the attributes of
the stream meet a condition. -/
def PlacesStreams (condition : Disk → Bytes → Geometry → List Attribute → Prop) : Prop :=
  ∀ (options : TableOptions) (raw : Buffer) (t : Table) (id total : Nat) (name : Option String)
    (disk : Disk) (contents : Bytes) (g : Geometry) (out : Buffer),
    (Table.build options raw).result = .ok t → Tiles (matching t id ⟨.data, name⟩) total →
    0 < g.sectorsPerCluster * g.bytesPerSector → g.sectorsPerCluster * g.bytesPerSector ≤ maxWord →
    disk.Holds contents → condition disk contents g (matching t id ⟨.data, name⟩) →
    (ofStream disk g t id ⟨.data, name⟩).result = .ok out →
    ∀ p < out.size, StreamHolds contents g (matching t id ⟨.data, name⟩) p (out.byte p)

theorem getElem?_of_placesStreams
    {condition : Disk → Bytes → Geometry → List Attribute → Prop}
    (hplaces : PlacesStreams condition) (swapped : Bool) (data : Bytes) (byte : UInt8)
    (hcondition : condition (.ofBuffer (.ofList data)) data ⟨0, 1, 1⟩
      (matching (splitTable swapped) 0 .content))
    (hfirst : (((matching (splitTable swapped) 0 .content).flatMap
      (attributeContent (.ofBuffer (.ofList data)) data ⟨0, 1, 1⟩)).take 2)[0]? = some byte) :
    data[2]? = some byte := by
  have hholds := Disk.holds_ofList data
  have hplaced := hplaces _ _ _ _ _ _ _ _ _ _ (build_splitRecords swapped)
    (tiles_splitTable swapped) (by decide) (by decide) hholds hcondition
    (ofStream_splitTable swapped data) 0
  rw [← Buffer.length_toList, Buffer.byte_eq, Buffer.toList_ofList,
    List.getD_eq_getElem?_getD, hfirst] at hplaced
  exact getElem?_of_streamHolds_splitTable (hplaced (List.getElem?_eq_some_iff.mp hfirst).1)

/-- A byte may stand elsewhere than the stream has it: neither the order of the attributes nor that
all of them come whole is enough alone. -/
theorem ofStream_misplaces :
    ¬ PlacesStreams (fun _ _ _ _ => True) ∧
    ¬ PlacesStreams (fun _ _ _ found =>
      found.Pairwise fun left right => firstVcn left < firstVcn right) ∧
    ¬ PlacesStreams (fun disk contents g found => ∀ a ∈ found, CameWhole disk contents g a) := by
  have hswapped : ((([extentAt 1 1, extentAt 0 2].flatMap
      (attributeContent (.ofBuffer (.ofList [0, 0xBB, 0xAA])) [0, 0xBB, 0xAA] ⟨0, 1, 1⟩)).take
        2)[0]? = some 0xBB) := by
    decide +kernel
  have hcut : ((([extentAt 0 2, extentAt 1 1].flatMap
      (attributeContent (.ofBuffer (.ofList [0, 0xBB])) [0, 0xBB] ⟨0, 1, 1⟩)).take 2)[0]? =
        some 0xBB) := by
    decide +kernel
  refine ⟨fun hplaces => ?_, fun hplaces => ?_, fun hplaces => ?_⟩
  · have hbyte := getElem?_of_placesStreams hplaces true [0, 0xBB, 0xAA] 0xBB trivial
      (by rw [matching_splitTable]; exact hswapped)
    cases hbyte
  · have hsorted : [extentAt 0 2, extentAt 1 1].Pairwise
        fun left right => firstVcn left < firstVcn right := by
      decide +kernel
    have hbyte := getElem?_of_placesStreams hplaces false [0, 0xBB] 0xBB
      (by rw [matching_splitTable]; exact hsorted) (by rw [matching_splitTable]; exact hcut)
    cases hbyte
  · have hwhole : ∀ a ∈ [extentAt 1 1, extentAt 0 2],
        CameWhole (.ofBuffer (.ofList [0, 0xBB, 0xAA])) [0, 0xBB, 0xAA] ⟨0, 1, 1⟩ a := by
      unfold CameWhole
      decide +kernel
    have hbyte := getElem?_of_placesStreams hplaces true [0, 0xBB, 0xAA] 0xBB
      (by rw [matching_splitTable]; exact hwhole) (by rw [matching_splitTable]; exact hswapped)
    cases hbyte

end Ntfs.Content
