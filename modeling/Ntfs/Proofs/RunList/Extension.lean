import Ntfs.Proofs.RunList.Grammar

/-!
# What follows a run list

A stored run list ends at its end marker or at the first run that cannot be read, and what comes after
it does not matter.  Only a list that is cut off is read on into the bytes behind it
(`decode_append_of_not_cut`).
-/

namespace Ntfs.RunList

/-- The bytes ended before the list did. -/
def Stop.isCut : Stop → Bool
  | .unterminated | .lengthCut | .offsetCut => true
  | .controlByte _ | .zeroLength | .outsideVolume _ => false

def Front.followedBy (after : Bytes) : Front → Front
  | .run r next rest => .run r next (rest ++ after)
  | .finish => .finish
  | .stop reason => .stop reason

/-- Whether the stored list is cut off by the end of the bytes. -/
def isCut (stored : Bytes) : Bool := (decodeFrom 0 stored).2.any Stop.isCut

theorem shorterThan_eq_false_iff {b : Bytes} {n : Nat} :
    Bytes.shorterThan b n = false ↔ n ≤ b.length := by
  rw [Bool.eq_false_iff, Ne, Bytes.shorterThan_iff, Nat.not_lt]

theorem frontFields_followedBy {lcn lengthSize offsetSize : Nat} {b : Bytes} (after : Bytes)
    (h : ∀ reason, frontFields lcn lengthSize offsetSize b = .stop reason → reason.isCut = false) :
    frontFields lcn lengthSize offsetSize (b ++ after) =
      (frontFields lcn lengthSize offsetSize b).followedBy after := by
  have hlength : Bytes.shorterThan b lengthSize = false := by
    apply Bool.eq_false_iff.mpr
    intro hshort
    exact Bool.noConfusion (h .lengthCut (by rw [frontFields, if_pos hshort]))
  have hle : lengthSize ≤ b.length := shorterThan_eq_false_iff.mp hlength
  have hlength' : Bytes.shorterThan (b ++ after) lengthSize = false := by
    rw [shorterThan_eq_false_iff, List.length_append]
    omega
  simp only [frontFields, hlength, hlength', List.take_append_of_le_length hle,
    List.drop_append_of_le_length hle, Bool.false_eq_true, if_false] at h ⊢
  split
  · rfl
  · rename_i hpositive
    rw [if_neg hpositive] at h
    split
    · rfl
    · rename_i hoffset
      rw [if_neg hoffset] at h
      have hwhole : Bytes.shorterThan (b.drop lengthSize) offsetSize = false := by
        apply Bool.eq_false_iff.mpr
        intro hshort
        exact Bool.noConfusion (h .offsetCut (by rw [if_pos hshort]))
      have hle' : offsetSize ≤ (b.drop lengthSize).length := shorterThan_eq_false_iff.mp hwhole
      have hwhole' : Bytes.shorterThan (b.drop lengthSize ++ after) offsetSize = false := by
        rw [shorterThan_eq_false_iff, List.length_append]
        omega
      simp only [hwhole, hwhole', List.take_append_of_le_length hle',
        List.drop_append_of_le_length hle', Bool.false_eq_true, if_false]
      split <;> rfl

theorem front_followedBy {lcn : Nat} {b : Bytes} (after : Bytes)
    (h : ∀ reason, front lcn b = .stop reason → reason.isCut = false) :
    front lcn (b ++ after) = (front lcn b).followedBy after := by
  cases b with
  | nil => exact Bool.noConfusion (h .unterminated rfl)
  | cons control rest =>
      simp only [front, List.cons_append] at h ⊢
      split
      · rfl
      · rename_i hcontrol
        rw [if_neg hcontrol] at h
        split
        · rfl
        · rename_i hsizes
          rw [if_neg hsizes] at h
          exact frontFields_followedBy after h

theorem decodeFrom_append_of_not_cut {lcn : Nat} {stored : Bytes} (after : Bytes)
    (h : (decodeFrom lcn stored).2.any Stop.isCut = false) :
    decodeFrom lcn (stored ++ after) = decodeFrom lcn stored := by
  induction lcn, stored using decodeFrom.induct with
  | case1 lcn stored r next rest hfront ih =>
      rw [decodeFrom_of_run hfront] at h
      have hfront' : front lcn (stored ++ after) = .run r next (rest ++ after) := by
        rw [front_followedBy after (by simp [hfront]), hfront, Front.followedBy]
      rw [decodeFrom_of_run hfront, decodeFrom_of_run hfront', ih h]
  | case2 lcn stored hfront =>
      have hfront' : front lcn (stored ++ after) = .finish := by
        rw [front_followedBy after (by simp [hfront]), hfront, Front.followedBy]
      rw [decodeFrom_of_finish hfront, decodeFrom_of_finish hfront']
  | case3 lcn stored reason hfront =>
      rw [decodeFrom_of_stop hfront, Option.any_some] at h
      have hfront' : front lcn (stored ++ after) = .stop reason := by
        rw [front_followedBy after, hfront, Front.followedBy]
        intro other hother
        rw [hfront] at hother
        cases hother
        exact h
      rw [decodeFrom_of_stop hfront, decodeFrom_of_stop hfront']

/-- A list that is not cut off is decoded the same whatever follows. -/
theorem decode_append_of_not_cut {stored : Bytes} (after : Bytes) (h : isCut stored = false) :
    decode (stored ++ after) = decode stored := by
  rw [decode, decodeFrom_append_of_not_cut after h, ← decode]

end Ntfs.RunList
