import Ntfs.Proofs.Fixup.Protect

/-!
# Restoring in place

A structure is restored where it lies: its sectors are looked at one after the other, and then written to
one after the other, with no way back.  All are looked at before any is written to, so a structure that
cannot be restored is left as it was (`restore_all_or_nothing`).
-/

namespace Ntfs.Fixup

/-! ## Work on a buffer -/

/-- Work that changes a buffer and may end with a fault.  What was changed before a fault stays changed. -/
abbrev InPlace := ExceptT Fault (StateM Buffer)

/-- What became of work on a buffer, and what the buffer holds then. -/
def InPlace.runOn (work : InPlace Unit) (buf : Buffer) : Except Fault Unit × Buffer :=
  Id.run (StateT.run (ExceptT.run work) buf)

def checkSector (array sector : Nat) : InPlace Unit := do
  let buf ← get
  if pairAt buf (tail sector) != pairAt buf array then throw (.torn sector)

def mendSector (array sector : Nat) : InPlace Unit :=
  modify fun buf => restoreSector array buf sector

/-- Undo the protection of a structure in place. -/
def restoreInPlace (array count : Nat) : InPlace Unit :=
  if count < 2 then pure ()
  else do
    let buf ← get
    if buf.size < array + 2 * count then throw .arrayOutside
    else do
      forM (sectors buf.size count) (checkSector array)
      forM (sectors buf.size count) (mendSector array)

section InPlace

variable {buf changed : Buffer} {work next : InPlace Unit} {fault : Fault}

theorem runOn_get_bind (f : Buffer → InPlace Unit) (buf : Buffer) :
    InPlace.runOn (get >>= f) buf = (f buf).runOn buf := rfl

theorem runOn_bind_of_ok (h : work.runOn buf = (.ok (), changed)) :
    InPlace.runOn (work >>= fun _ => next) buf = next.runOn changed := by
  simp only [InPlace.runOn, ExceptT.run_bind, StateT.run_bind, Id.run_bind] at h ⊢
  rw [h]

theorem runOn_bind_of_error (h : work.runOn buf = (.error fault, changed)) :
    InPlace.runOn (work >>= fun _ => next) buf = (.error fault, changed) := by
  simp only [InPlace.runOn, ExceptT.run_bind, StateT.run_bind, Id.run_bind] at h ⊢
  rw [h]
  rfl

theorem runOn_checkSector (buf : Buffer) (array sector : Nat) :
    (checkSector array sector).runOn buf =
      (if pairAt buf (tail sector) != pairAt buf array then .error (.torn sector) else .ok (), buf) := by
  rw [checkSector, runOn_get_bind]
  cases pairAt buf (tail sector) != pairAt buf array <;> rfl

theorem runOn_mendSector (buf : Buffer) (array sector : Nat) :
    (mendSector array sector).runOn buf = (.ok (), restoreSector array buf sector) := rfl

/-- Looking at sectors changes nothing, and ends at the first that does not carry the number. -/
theorem runOn_checkSectors (buf : Buffer) (array : Nat) (all : List Nat) :
    InPlace.runOn (forM all (checkSector array)) buf =
      (match firstTorn buf array all with
        | some sector => .error (.torn sector)
        | none => .ok (), buf) := by
  induction all with
  | nil => rfl
  | cons sector rest ih =>
      have hsector := runOn_checkSector buf array sector
      rw [List.forM_cons, firstTorn, List.find?_cons]
      cases htorn : pairAt buf (tail sector) != pairAt buf array with
      | true =>
          rw [htorn, if_pos rfl] at hsector
          exact runOn_bind_of_error hsector
      | false =>
          rw [htorn, if_neg Bool.false_ne_true] at hsector
          rw [runOn_bind_of_ok hsector, ih]
          rfl

/-- Mending sectors in place is restoring one after the other. -/
theorem runOn_mendSectors (buf : Buffer) (array : Nat) (all : List Nat) :
    InPlace.runOn (forM all (mendSector array)) buf =
      (.ok (), all.foldl (restoreSector array) buf) := by
  induction all generalizing buf with
  | nil => rfl
  | cons sector rest ih =>
      rw [List.forM_cons, runOn_bind_of_ok (runOn_mendSector buf array sector), ih]
      rfl

end InPlace

/-! ## When a structure is restored -/

section Restoring

variable {buf restored : Buffer} {array count sector : Nat}

theorem restore_of_lt_two (h : count < 2) : restore buf array count = .ok buf := if_pos h

theorem restore_of_outside (h : 2 ≤ count) (hsize : buf.size < array + 2 * count) :
    restore buf array count = .error .arrayOutside := by
  rw [restore, if_neg (Nat.not_lt.mpr h), if_pos hsize]

theorem restore_of_inside (h : 2 ≤ count) (hsize : array + 2 * count ≤ buf.size) :
    restore buf array count =
      match firstTorn buf array (sectors buf.size count) with
      | some sector => .error (.torn sector)
      | none => .ok ((sectors buf.size count).foldl (restoreSector array) buf) := by
  rw [restore, if_neg (Nat.not_lt.mpr h)]
  exact if_neg (Nat.not_lt.mpr hsize)

/-- Restoring in place ends as restoring does, and a fault finds the buffer unchanged. -/
theorem runOn_restoreInPlace (buf : Buffer) (array count : Nat) :
    (restoreInPlace array count).runOn buf =
      match restore buf array count with
      | .ok restored => (.ok (), restored)
      | .error fault => (.error fault, buf) := by
  unfold restoreInPlace
  by_cases hcount : count < 2
  · rw [if_pos hcount, restore_of_lt_two hcount]
    rfl
  have hcount' := Nat.not_lt.mp hcount
  rw [if_neg hcount, runOn_get_bind]
  by_cases hsize : buf.size < array + 2 * count
  · rw [if_pos hsize, restore_of_outside hcount' hsize]
    rfl
  have hcheck := runOn_checkSectors buf array (sectors buf.size count)
  rw [if_neg hsize, restore_of_inside hcount' (Nat.not_lt.mp hsize)]
  cases htorn : firstTorn buf array (sectors buf.size count) with
  | some sector =>
      rw [htorn] at hcheck
      exact runOn_bind_of_error hcheck
  | none =>
      rw [htorn] at hcheck
      rw [runOn_bind_of_ok hcheck, runOn_mendSectors]

theorem mem_sectors_iff_lt_min {length : Nat} :
    sector ∈ sectors length count ↔ 1 ≤ sector ∧ sector < min count (length / sectorSize + 1) := by
  rw [sectors, List.mem_range'_1]
  omega

theorem firstTorn_eq_none_iff {all : List Nat} :
    firstTorn buf array all = none ↔ ∀ sector ∈ all, pairAt buf (tail sector) = pairAt buf array := by
  simp [firstTorn]

/-- Restoring succeeds if the array lies inside the structure and every sector carries the number; a
structure that is not protected needs neither. -/
theorem exists_restore_eq_ok_iff : (∃ restored, restore buf array count = .ok restored) ↔
    count < 2 ∨ array + 2 * count ≤ buf.size ∧
      ∀ sector ∈ sectors buf.size count, pairAt buf (tail sector) = pairAt buf array := by
  by_cases hcount : count < 2
  · simp [restore_of_lt_two hcount, hcount]
  have hcount' := Nat.not_lt.mp hcount
  by_cases hsize : buf.size < array + 2 * count
  · simp [restore_of_outside hcount' hsize, hcount, Nat.not_le.mpr hsize]
  rw [restore_of_inside hcount' (Nat.not_lt.mp hsize), ← firstTorn_eq_none_iff]
  cases firstTorn buf array (sectors buf.size count) <;> simp [hcount, Nat.not_lt.mp hsize]

/-- What a restored structure comes from. -/
theorem eq_foldl_of_restore_eq_ok (h : restore buf array count = .ok restored) :
    restored = (sectors buf.size count).foldl (restoreSector array) buf := by
  by_cases hcount : count < 2
  · rw [restore_of_lt_two hcount] at h
    have hnone : sectors buf.size count = [] := by
      rw [List.eq_nil_iff_forall_not_mem]
      intro sector hsector
      have := mem_sectors_iff_lt_min.mp hsector
      omega
    rw [hnone, ← Except.ok.inj h]
    rfl
  have hcount' := Nat.not_lt.mp hcount
  by_cases hsize : buf.size < array + 2 * count
  · rw [restore_of_outside hcount' hsize] at h
    cases h
  rw [restore_of_inside hcount' (Nat.not_lt.mp hsize)] at h
  split at h
  · cases h
  · exact (Except.ok.inj h).symm

/-- The end of a restored sector is its entry in the array. -/
theorem pairAt_of_restore_eq_ok (h : restore buf array count = .ok restored)
    (hroom : HasRoom buf.size array count) (hsector : sector ∈ sectors buf.size count) :
    pairAt restored (tail sector) = pairAt buf (array + 2 * sector) := by
  rw [eq_foldl_of_restore_eq_ok h]
  exact pairAt_foldl_restoreSector (pairwise_sectors _ _) (fun _ => tail_add_two_le)
    (fun s hs t ht => hroom.entry_clear (mem_sectors_iff.mp hs).2 ht) hsector

end Restoring

/-- Restoring is all or nothing.  It succeeds exactly when the structure is not protected at all, or the
array lies inside it and every sector carries the number.  Done in place, it leaves the buffer as it was
if it fails; else nothing changes outside the ends of the sectors, and each of them becomes its entry in
the array if that keeps clear of them all.  So what protection displaced comes back, and only the array
is different. -/
theorem restore_all_or_nothing (buf : Buffer) (array count : Nat) :
    ((∃ restored, restore buf array count = .ok restored) ↔
      count < 2 ∨ array + 2 * count ≤ buf.size ∧
        ∀ sector, 1 ≤ sector → sector < min count (buf.size / 512 + 1) →
          pairAt buf (sector * 512 - 2) = pairAt buf array) ∧
    (∀ fault, restore buf array count = .error fault →
      (restoreInPlace array count).runOn buf = (.error fault, buf)) ∧
    (∀ restored, restore buf array count = .ok restored →
      (restoreInPlace array count).runOn buf = (.ok (), restored) ∧
      restored.size = buf.size ∧
      (∀ i, (∀ sector ∈ sectors buf.size count, i < tail sector ∨ tail sector + 2 ≤ i) →
        restored.byte i = buf.byte i) ∧
      (HasRoom buf.size array count → ∀ sector ∈ sectors buf.size count,
        pairAt restored (tail sector) = pairAt buf (array + 2 * sector))) ∧
    (∀ number, (2 ≤ count → HasRoom buf.size array count) →
      ∃ restored, restore (protect buf array count number) array count = .ok restored ∧
        restored.size = buf.size ∧
        ∀ i, i < array ∨ array + 2 * count ≤ i → restored.byte i = buf.byte i) := by
  have hrun := runOn_restoreInPlace buf array count
  refine ⟨?_, fun fault hfault => ?_, fun restored hrestored => ?_, fun number hroom => ?_⟩
  · rw [exists_restore_eq_ok_iff]
    simp only [mem_sectors_iff_lt_min, and_imp]
    rfl
  · rw [hrun, hfault]
  · refine ⟨by rw [hrun, hrestored], size_of_restore hrestored, fun i hfree => ?_,
      fun hroom sector hsector => pairAt_of_restore_eq_ok hrestored hroom hsector⟩
    rw [eq_foldl_of_restore_eq_ok hrestored]
    exact byte_foldl_restoreSector_of_free hfree
  · obtain ⟨restored, hrestored, hsize, hbytes⟩ := restore_protect hroom number
    refine ⟨restored, hrestored, hsize, fun i hi => hbytes i fun hcount => ?_⟩
    have hentries : entries buf.size count ≤ count := entries_le hcount
    omega

/-- Two sectors of sevens, with an array of three entries behind the header. -/
def sevens : Buffer := .ofList (List.replicate 1024 7)

theorem size_sevens : sevens.size = 1024 := by
  rw [← Buffer.length_toList, sevens, Buffer.toList_ofList, List.length_replicate]

/-- Two sectors of sevens are protected and restored. -/
theorem restore_all_or_nothing_sevens :
    HasRoom sevens.size 0x30 3 ∧
    ∃ restored, restore (protect sevens 0x30 3 (1, 0)) 0x30 3 = .ok restored ∧
      restored.size = 1024 ∧ restored.byte 510 = 7 ∧ restored.byte 1023 = 7 := by
  have hroom : HasRoom sevens.size 0x30 3 := by
    rw [size_sevens]
    exact ⟨by decide, by decide⟩
  obtain ⟨restored, hrestored, hsize, hbytes⟩ :=
    (restore_all_or_nothing sevens 0x30 3).2.2.2 (1, 0) fun _ => hroom
  have hseven : ∀ i, i < 1024 → sevens.byte i = 7 := by
    intro i hi
    rw [sevens, Buffer.byte_eq, Buffer.toList_ofList, List.getD_eq_getElem?_getD,
      List.getElem?_replicate_of_lt hi]
    rfl
  refine ⟨hroom, restored, hrestored, hsize.trans size_sevens, ?_, ?_⟩
  · rw [hbytes 510 (.inr (by decide)), hseven 510 (by decide)]
  · rw [hbytes 1023 (.inr (by decide)), hseven 1023 (by decide)]

end Ntfs.Fixup
