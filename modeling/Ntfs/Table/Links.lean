import Ntfs.Table.Basic

/-!
# Links between records

The attribute lists of a base record name the records that extend it.  Each base record proposes
links from itself to the first of them, from there to the second, and so on.  Proposals are made in
the order of the base records, and the first one for a record wins; a later one with another target
is reported.
-/

namespace Ntfs

namespace Record

/-- The records named in the attribute lists of record number `id`, in order of first mention,
each once and `id` itself left out. -/
def listedRecords (id : UInt64) (r : Record) : List UInt64 :=
  let holders := r.attributes.flatMap fun a =>
    match a.body with
    | .attributeList entries => entries.map (·.holder.record)
    | _ => []
  (holders.filter (· != id)).eraseDups

end Record

namespace Table

/-- A step of linking. -/
inductive LinkStep where
  /-- The chain of `base` asks for a link. -/
  | propose (base source target : UInt64)
  /-- The chain of `base` names a record that does not exist. -/
  | dangle (base target : UInt64)
  deriving DecidableEq, Repr

/-- The steps for the records that `base` lists, where `source` is the end of its chain so far.
Records that do not exist do not break the chain. -/
def linkStepsFrom (size : Nat) (base source : UInt64) : List UInt64 → List LinkStep
  | [] => []
  | target :: rest =>
    if target.toNat < size then
      .propose base source target :: linkStepsFrom size base target rest
    else .dangle base target :: linkStepsFrom size base source rest

def linkSteps (t : Table) : List LinkStep :=
  (t.records.toList.zipIdx).flatMap fun (r, index) =>
    let id := UInt64.ofNat index
    linkStepsFrom t.size id id (r.listedRecords id)

/-- Take one step; returns the warning it raises, if any. -/
def applyLink (t : Table) : LinkStep → Table × List Warning
  | .dangle base target =>
    (t, [.dangling base target "attribute list target outside the table"])
  | .propose base source target =>
    match (t.get? source.toNat).bind (·.link) with
    | none => (t.modify source.toNat fun r => { r with link := some target }, [])
    | some existing =>
      if existing = target then (t, [])
      else
        (t, [.corruption source
          s!"already linked to {existing}, link to {target} from base {base} dropped"])

def applyLinks (t : Table) : List LinkStep → Table × List Warning
  | [] => (t, [])
  | step :: rest =>
    let (t, warnings) := t.applyLink step
    let (t, more) := t.applyLinks rest
    (t, warnings ++ more)

def linked (t : Table) : Table × List Warning := t.applyLinks t.linkSteps

end Table

end Ntfs
