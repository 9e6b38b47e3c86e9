import Ntfs.Attribute.Basic
import Ntfs.Text.Blank

/-!
# Attributes in a line

The line a listing shows for an attribute: kind, code, number, form, size, and a word on the
content.
-/

namespace Ntfs.Attribute

def residencyName (a : Attribute) : String :=
  if a.isNonResident then "Non\u2011resident" else "Resident"

def detail (a : Attribute) : String :=
  match a.body with
  | .standardInformation s => "flags " ++ s.flagNames
  | .attributeList entries => s!"{entries.length} entries"
  | .fileName f => f.name ++ " (" ++ f.space.name ++ s!") parent {f.parent.record}"
  | .objectId o => o.object
  | .volumeName n => n
  | .volumeInformation v =>
    s!"NTFS {v.major}.{v.minor} flags 0x" ++ Hex.upper 4 v.flags.toNat
  | .data _ =>
    match a.nonResident? with
    | some form => s!"{form.runList.runs.length} runs"
    | none => ""
  | .indexRoot r => s!"{r.entries.length} entries"
  | .indexAllocation i =>
    if i.loaded then s!"{i.entries.length} entries in {i.blocks} blocks" else "not loaded"
  | .bitmap m => s!"{m.ones} bits set"
  | .reparsePoint r =>
    match r.printName with
    | some target => r.tagName ++ " -> " ++ target
    | none => r.tagName ++ " (0x" ++ Hex.upper 8 r.tag.toNat ++ ")"
  | .raw _ | .undecoded => ""

def describe (a : Attribute) : String :=
  Blank.trimRight <|
    a.kind.name ++ " (0x" ++ Hex.upper 1 a.kind.code.toNat ++ s!"-#{a.header.id}) "
      ++ a.residencyName ++ s!" {a.contentSize} bytes " ++ a.detail

end Ntfs.Attribute
