import Std.Data.HashSet

/-!
# Trails

References lead from record to record and may run in circles.  A trail follows them up to the first
record that is not admitted or was met before.
-/

namespace Ntfs

/-- Follow `next` from `id` on, for at most `fuel` steps, while what is met is admitted and not
in `seen`. -/
def trail (admits : Nat → Bool) (next : Nat → Option Nat) :
    (fuel : Nat) → (seen : Std.HashSet Nat) → (id : Option Nat) → List Nat
  | 0, _, _ => []
  | _ + 1, _, none => []
  | fuel + 1, seen, some id =>
    if admits id && !seen.contains id then
      id :: trail admits next fuel (seen.insert id) (next id)
    else []

end Ntfs
