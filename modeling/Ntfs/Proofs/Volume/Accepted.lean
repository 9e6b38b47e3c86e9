import Mathlib.Algebra.Group.Nat.Defs
import Ntfs.BootSector
import Ntfs.Proofs.Bytes.Layout

/-!
# Boot sectors that are accepted

The size of a cluster is computed twice: with an overflow check when the sector is read, and capped in the
geometry of the volume.  A sector is accepted if and only if every size it tells fits its word
(`decode_accepts_exactly`), and then neither computation loses anything: both give the product of the two
stored sizes, and the file table starts where they say.
-/

namespace Ntfs.BootSector

/-- The OEM identifier that is asked for. -/
def ntfsText : Bytes := "NTFS    ".toList.map fun c => UInt8.ofNat c.toNat

/-- The sectors of a cluster by the byte that tells them: a count, or a negated exponent. -/
def sectorsOf (n : UInt8) : Nat := if n.toNat ≤ 0x80 then n.toNat else 2 ^ (256 - n.toNat)

/-- A byte that stands for an exponent stands for one below 64. -/
def ExponentFits (n : UInt8) : Prop := 0x80 < n.toNat → 256 - n.toNat < 64

instance (n : UInt8) : Decidable (ExponentFits n) :=
  inferInstanceAs (Decidable (0x80 < n.toNat → 256 - n.toNat < 64))

/-- The bytes of a cluster by the two places of a sector that tell them. -/
def clusterBytes (raw : Bytes) : Nat :=
  sectorsOf (Bytes.u8 raw 0x0D) * (Bytes.u16 raw 0x0B).toNat

/-- The signed byte that tells the size of a file record. -/
def recordCode (raw : Bytes) : Int := (Bytes.u8 raw 0x40).toInt8.toInt

/-- What is asked of a sector, by the places where it keeps its sizes. -/
structure Acceptable (raw : Bytes) : Prop where
  long : 512 ≤ raw.length
  oemId : raw.part 0x03 8 = ntfsText
  sectorBytes_ne : Bytes.u16 raw 0x0B ≠ 0
  sectorsByte_ne : Bytes.u8 raw 0x0D ≠ 0
  exponent : ExponentFits (Bytes.u8 raw 0x0D)
  cluster_lt : clusterBytes raw < 2 ^ 64
  record_lt : 0 < recordCode raw → clusterBytes raw * (recordCode raw).toNat < 2 ^ 32
  recordExponent_le : recordCode raw ≤ 0 → (recordCode raw).natAbs ≤ 31
  table_lt : (Bytes.u64 raw 0x30).toNat * clusterBytes raw < 2 ^ 64

section Sizes

variable {b : BootSector}

theorem clusterSectors?_eq (b : BootSector) :
    b.clusterSectors? = if ExponentFits b.sectorsByte then some (sectorsOf b.sectorsByte) else none := by
  simp only [clusterSectors?, sectorsOf, Nat.one_shiftLeft]
  by_cases hcount : b.sectorsByte.toNat ≤ 0x80
  · have hfits : ExponentFits b.sectorsByte := fun hgt => absurd hcount (Nat.not_le.mpr hgt)
    rw [if_pos hcount, if_pos hcount, if_pos hfits]
  · have hfits : ExponentFits b.sectorsByte ↔ 256 - b.sectorsByte.toNat < 64 :=
      ⟨fun h => h (Nat.not_le.mp hcount), fun h _ => h⟩
    simp only [if_neg hcount, hfits]

theorem le_maxWord_iff {n : Nat} : n ≤ maxWord ↔ n < 2 ^ 64 := by
  have hbound : 2 ^ 64 = maxWord + 1 := by decide
  omega

/-- The size of a cluster is the product of what the sector tells, or zero if that does not fit a word. -/
theorem clusterSize_eq (b : BootSector) :
    b.clusterSize =
      if ExponentFits b.sectorsByte ∧ sectorsOf b.sectorsByte * b.bytesPerSector.toNat < 2 ^ 64
      then sectorsOf b.sectorsByte * b.bytesPerSector.toNat else 0 := by
  rw [clusterSize, clusterSectors?_eq]
  by_cases hexponent : ExponentFits b.sectorsByte
  · rw [if_pos hexponent]
    simp only [le_maxWord_iff, hexponent, true_and]
  · rw [if_neg hexponent, if_neg fun h => hexponent h.1]

/-- Neither size is zero, so their product is not. -/
theorem sectorsOf_mul_pos {n : UInt8} {bytes : UInt16} (hbytes : bytes ≠ 0) (hn : n ≠ 0) :
    0 < sectorsOf n * bytes.toNat := by
  have hsectors : 0 < sectorsOf n := by
    rw [sectorsOf]
    split
    · exact Nat.pos_of_ne_zero fun hzero => hn (UInt8.toNat_inj.mp hzero)
    · exact Nat.two_pow_pos _
  exact Nat.mul_pos hsectors (Nat.pos_of_ne_zero fun hzero => hbytes (UInt16.toNat_inj.mp hzero))

/-- The cluster size is zero only where it does not fit. -/
theorem clusterSize_ne_zero_iff (hsector : b.bytesPerSector ≠ 0) (hsectors : b.sectorsByte ≠ 0) :
    b.clusterSize ≠ 0 ↔
      ExponentFits b.sectorsByte ∧ sectorsOf b.sectorsByte * b.bytesPerSector.toNat < 2 ^ 64 := by
  have hpos := sectorsOf_mul_pos hsector hsectors
  rw [clusterSize_eq]
  split
  · rename_i hfits
    exact ⟨fun _ => hfits, fun _ => Nat.ne_of_gt hpos⟩
  · rename_i hfits
    exact ⟨fun h => absurd rfl h, fun h => absurd h hfits⟩

theorem isSome_recordSize?_iff :
    b.recordSize?.isSome ↔
      (0 < b.recordByte.toInt → b.clusterSize * b.recordByte.toInt.toNat < 2 ^ 32) ∧
        (b.recordByte.toInt ≤ 0 → b.recordByte.toInt.natAbs ≤ 31) := by
  have hbound : UInt32.size = 2 ^ 32 := rfl
  simp only [recordSize?, hbound]
  by_cases hcount : 0 < b.recordByte.toInt
  · -- a record has at least one cluster, so the check of the cluster alone adds nothing
    have hcluster : b.clusterSize ≤ b.clusterSize * b.recordByte.toInt.toNat :=
      Nat.le_mul_of_pos_right _ (by omega)
    rw [if_pos hcount, Option.isSome_ite]
    exact ⟨fun h => ⟨fun _ => h.2, fun hle => absurd hcount (Int.not_lt.mpr hle)⟩,
      fun h => ⟨Nat.lt_of_le_of_lt hcluster (h.1 hcount), h.1 hcount⟩⟩
  · rw [if_neg hcount, Option.isSome_ite]
    exact ⟨fun h => ⟨fun hgt => absurd hgt hcount, fun _ => Nat.le_of_lt_succ h⟩,
      fun h => Nat.lt_succ_of_le (h.2 (Int.not_lt.mp hcount))⟩

theorem isSome_tableAddress?_iff :
    b.tableAddress?.isSome ↔ b.tableCluster.toNat * b.clusterSize < 2 ^ 64 := by
  rw [tableAddress?, Option.isSome_ite, le_maxWord_iff]

/-- The fields have no fault if the identifier is the expected one, no size is zero and all sizes fit. -/
theorem fault?_eq_none_iff :
    b.fault? = none ↔
      b.oemId = ntfsId ∧ b.bytesPerSector ≠ 0 ∧ b.sectorsByte ≠ 0 ∧ b.clusterSize ≠ 0 ∧
        b.recordSize?.isSome ∧ b.tableAddress?.isSome := by
  have hcheck {p : Prop} [Decidable p] (fault : Fault) (rest : Option Fault) :
      (if p then some fault else rest) = none ↔ ¬ p ∧ rest = none := by
    split <;> simp [*]
  rw [fault?, hcheck, hcheck, hcheck, hcheck, hcheck]
  simp [and_assoc, Option.isSome_iff_ne_none]

end Sizes

theorem decode_eq_ok_iff {raw : Bytes} {b : BootSector} :
    decode raw = .ok b ↔ 512 ≤ raw.length ∧ (ofBytes raw).fault? = none ∧ ofBytes raw = b := by
  rw [decode]
  split
  · rename_i hshort
    exact ⟨fun h => (nomatch h), fun h => absurd h.1 (Nat.not_le.mpr hshort)⟩
  · rename_i hlong
    dsimp only
    cases hfault : (ofBytes raw).fault? with
    | some fault => exact ⟨fun h => (nomatch h), fun h => (nomatch h.2.1)⟩
    | none =>
        exact ⟨fun h => ⟨Nat.not_lt.mp hlong, rfl, Except.ok.inj h⟩, fun h => congrArg Except.ok h.2.2⟩

/-- The identifier is compared as a word, and the bytes of this word are the text. -/
theorem oemId_eq_iff {raw : Bytes} (hlong : 512 ≤ raw.length) :
    (ofBytes raw).oemId = ntfsId ↔ raw.part 0x03 8 = ntfsText := by
  have hstored : Bytes.ofNatLE 8 ntfsId.toNat = ntfsText := by decide
  constructor
  · intro hword
    rw [Bytes.part_eq_of_u64 (by omega) hword, hstored]
  · intro htext
    exact Bytes.u64_of_part (htext.trans hstored.symm)

theorem clusterSize_ofBytes {raw : Bytes} (hexponent : ExponentFits (Bytes.u8 raw 0x0D))
    (hcluster : clusterBytes raw < 2 ^ 64) : (ofBytes raw).clusterSize = clusterBytes raw := by
  rw [clusterSize_eq, if_pos ⟨hexponent, hcluster⟩]
  rfl

/-- The fields have no fault exactly where the sizes fit. -/
theorem fault?_ofBytes_eq_none_iff {raw : Bytes} (hlong : 512 ≤ raw.length) :
    (ofBytes raw).fault? = none ↔ Acceptable raw := by
  rw [fault?_eq_none_iff, oemId_eq_iff hlong, isSome_recordSize?_iff, isSome_tableAddress?_iff]
  constructor
  · rintro ⟨hoem, hsector, hsectors, hcluster, ⟨hrecord, hexponent⟩, htable⟩
    obtain ⟨hfits, hlt⟩ := (clusterSize_ne_zero_iff hsector hsectors).mp hcluster
    rw [clusterSize_ofBytes hfits hlt] at hrecord htable
    exact ⟨hlong, hoem, hsector, hsectors, hfits, hlt, hrecord, hexponent, htable⟩
  · intro h
    have hcluster : (ofBytes raw).clusterSize ≠ 0 :=
      (clusterSize_ne_zero_iff h.sectorBytes_ne h.sectorsByte_ne).mpr ⟨h.exponent, h.cluster_lt⟩
    rw [clusterSize_ofBytes h.exponent h.cluster_lt] at hcluster ⊢
    exact ⟨h.oemId, h.sectorBytes_ne, h.sectorsByte_ne, hcluster,
      ⟨h.record_lt, h.recordExponent_le⟩, h.table_lt⟩

theorem tableAddress?_ofBytes {raw : Bytes} (h : Acceptable raw) :
    (ofBytes raw).tableAddress? = some ((Bytes.u64 raw 0x30).toNat * clusterBytes raw) := by
  rw [tableAddress?, clusterSize_ofBytes h.exponent h.cluster_lt]
  exact if_pos (le_maxWord_iff.mpr h.table_lt)

/-- In the geometry of an accepted sector the cluster size is not capped. -/
theorem clusterSize_geometry {raw : Bytes} (h : Acceptable raw) (start : Nat) :
    ((ofBytes raw).geometry start).clusterSize = clusterBytes raw := by
  have hsectors : (ofBytes raw).clusterSectors? = some (sectorsOf (Bytes.u8 raw 0x0D)) := by
    rw [clusterSectors?_eq]
    exact if_pos h.exponent
  have hfits : clusterBytes raw ≤ maxWord := le_maxWord_iff.mpr h.cluster_lt
  rw [Geometry.clusterSize, geometry, hsectors, Option.getD_some]
  exact Nat.min_eq_left hfits

/-- A sector is accepted if and only if it is a whole one of this file system and each of its sizes fits.
Then the cluster size is the product of the two that are stored, the same in the sector and in the
geometry of the volume and not zero, and the file table starts where the sector says, if a word can tell
that place. -/
theorem decode_accepts_exactly (raw : Bytes) :
    ((∃ b, decode raw = .ok b) ↔ Acceptable raw) ∧
    ∀ b, decode raw = .ok b → ∀ start : Nat,
      (b.geometry start).clusterSize = clusterBytes raw ∧ b.clusterSize = clusterBytes raw ∧
      0 < clusterBytes raw ∧
      ∃ address, b.tableAddress? = some address ∧
        address = (Bytes.u64 raw 0x30).toNat * clusterBytes raw ∧
        ((b.geometry start).clusterOffset? b.tableCluster.toNat = some (start + address) ↔
          start + address < 2 ^ 64) := by
  refine ⟨⟨?_, fun h => ?_⟩, fun b hb start => ?_⟩
  · rintro ⟨b, hb⟩
    obtain ⟨hlong, hsound, -⟩ := decode_eq_ok_iff.mp hb
    exact (fault?_ofBytes_eq_none_iff hlong).mp hsound
  · exact ⟨_, decode_eq_ok_iff.mpr ⟨h.long, (fault?_ofBytes_eq_none_iff h.long).mpr h, rfl⟩⟩
  · obtain ⟨hlong, hsound, rfl⟩ := decode_eq_ok_iff.mp hb
    have h := (fault?_ofBytes_eq_none_iff hlong).mp hsound
    refine ⟨clusterSize_geometry h start, clusterSize_ofBytes h.exponent h.cluster_lt,
      sectorsOf_mul_pos h.sectorBytes_ne h.sectorsByte_ne, _, tableAddress?_ofBytes h, rfl, ?_⟩
    have hlcn : (ofBytes raw).tableCluster = Bytes.u64 raw 0x30 := rfl
    have hstart : ((ofBytes raw).geometry start).start = start := rfl
    have haddress := le_maxWord_iff.mpr h.table_lt
    rw [Geometry.clusterOffset?, clusterSize_geometry h start, hlcn, hstart, Nat.add_comm start,
      ← le_maxWord_iff]
    simp [haddress]

/-- A sector that tells clusters of 2 to the 12th sectors, with the file table in the third of them. -/
def largeSector : Bytes :=
  List.replicate 3 0 ++ ntfsText ++ [0, 2, 0xF4] ++ List.replicate 34 0 ++ [3] ++
    List.replicate 15 0 ++ [0xF6] ++ List.replicate 447 0

/-- Clusters of 2 to the 12th sectors, told by a negated exponent. -/
theorem decode_accepts_exactly_large :
    Acceptable largeSector ∧
    ∃ b, decode largeSector = .ok b ∧ b.clusterSize = 0x200000 ∧
      (b.geometry 7).clusterSize = 0x200000 ∧
      (b.geometry 7).clusterOffset? b.tableCluster.toNat = some 0x600007 := by
  have hacceptable : Acceptable largeSector := by
    constructor <;> decide +kernel
  have hcluster : clusterBytes largeSector = 0x200000 := by decide +kernel
  have htable : (Bytes.u64 largeSector 0x30).toNat = 3 := by decide +kernel
  obtain ⟨haccepts, hsizes⟩ := decode_accepts_exactly largeSector
  obtain ⟨b, hb⟩ := haccepts.mpr hacceptable
  obtain ⟨hgeometry, hsize, -, address, -, haddress, hoffset⟩ := hsizes b hb 7
  rw [hcluster] at hgeometry hsize haddress
  rw [htable] at haddress
  subst haddress
  exact ⟨hacceptable, b, hb, hsize, hgeometry, hoffset.mpr (by decide)⟩

end Ntfs.BootSector
