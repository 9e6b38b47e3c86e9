import Ntfs.Json.Decode

/-!
# Readers take back what writers give

For every shape that stored records are made of, the reader is a left inverse of the writer: numbers
of each width, absent values, arrays, and objects whose members have different names.
-/

namespace Ntfs.Json

variable {α : Type}

/-! ## Numbers -/

theorem natBelow?_nat {bound n : Nat} (h : n < bound) : natBelow? bound (nat n) = some n := by
  have hinside : (0 : Int) ≤ n ∧ (n : Int) < bound := ⟨Int.natCast_nonneg n, Int.ofNat_lt.mpr h⟩
  rw [nat, natBelow?, if_pos hinside]
  rfl

@[simp]
theorem u8?_nat (n : UInt8) : u8? (nat n.toNat) = some n := by
  rw [u8?, natBelow?_nat n.toNat_lt, Option.map_some, UInt8.ofNat_toNat]

@[simp]
theorem u16?_nat (n : UInt16) : u16? (nat n.toNat) = some n := by
  rw [u16?, natBelow?_nat n.toNat_lt, Option.map_some, UInt16.ofNat_toNat]

@[simp]
theorem u32?_nat (n : UInt32) : u32? (nat n.toNat) = some n := by
  rw [u32?, natBelow?_nat n.toNat_lt, Option.map_some, UInt32.ofNat_toNat]

@[simp]
theorem u64?_nat (n : UInt64) : u64? (nat n.toNat) = some n := by
  rw [u64?, natBelow?_nat n.toNat_lt, Option.map_some, UInt64.ofNat_toNat]

@[simp]
theorem i64?_int (n : Int64) : i64? (.int n.toInt) = some n := by
  have hinside : -0x8000000000000000 ≤ n.toInt ∧ n.toInt < 0x8000000000000000 :=
    ⟨n.le_toInt, n.toInt_lt⟩
  rw [i64?, if_pos hinside, Int64.ofInt_toInt]

@[simp]
theorem bool?_bool (b : Bool) : bool? (.bool b) = some b := rfl

@[simp]
theorem str?_str (s : String) : str? (.str s) = some s := rfl

/-! ## Fields -/

@[simp]
theorem required_some (read : Json → Option α) (j : Json) : required read (some j) = read j := by
  rw [required, Option.bind_some]

/-- A reader that takes `null` for no value reads an optional value, present or absent. -/
theorem optional_opt {read : Json → Option α} {write : α → Json} {value : Option α}
    (hnull : read .null = none) (hread : ∀ a ∈ value, read (write a) = some a) :
    optional read (some (opt write value)) = some value := by
  cases value with
  | none => rfl
  | some a =>
      have ha : read (write a) = some a := hread a rfl
      rw [opt]
      unfold optional
      split
      · contradiction
      · rename_i hj
        rw [Option.some.inj hj, hnull] at ha
        contradiction
      · rename_i j _ hj
        rw [← Option.some.inj hj, ha, Option.map_some]

@[simp]
theorem optional_str (value : Option String) :
    optional str? (some (opt .str value)) = some value :=
  optional_opt rfl fun _ _ => rfl

/-! ## Arrays -/

/-- A list is read back if each of its items is. -/
theorem list?_list {read : Json → Option α} {write : α → Json} {items : List α}
    (hread : ∀ a ∈ items, read (write a) = some a) :
    list? read (list write items) = some items := by
  rw [list, list?]
  induction items with
  | nil => rfl
  | cons a rest ih =>
      obtain ⟨ha, hrest⟩ := List.forall_mem_cons.mp hread
      rw [List.map_cons, List.mapM_cons, ha, ih hrest]
      rfl

@[simp]
theorem bytes?_bytes (b : Bytes) : bytes? (bytes b) = some b :=
  list?_list fun x _ => u8?_nat x

/-! ## Objects -/

/-- A member is found under its name if no other has it. -/
theorem lookup_of_mem {members : List (String × Json)} (hnodup : (members.map Prod.fst).Nodup)
    {m : String × Json} (hm : m ∈ members) : List.lookup m.1 members = some m.2 := by
  induction members with
  | nil => cases hm
  | cons first rest ih =>
      obtain ⟨hfirst, hrest⟩ := List.nodup_cons.mp hnodup
      rcases List.mem_cons.mp hm with rfl | hm
      · exact List.lookup_cons_self
      · have hne : (m.1 == first.1) = false :=
          beq_eq_false_iff_ne.mpr fun heq => hfirst (heq ▸ List.mem_map_of_mem hm)
        rw [List.lookup_cons, hne]
        exact ih hrest hm

/-- What is made of the members of an object is made of their values, in the order asked for. -/
theorem members?_bind {names : List String} {members : List (String × Json)}
    {make : List (Option Json) → Option α} {a : α} (hnames : members.map Prod.fst = names)
    (hnodup : names.Nodup) (hmake : make (members.map fun m => some m.2) = some a) :
    (members? names (.obj members)).bind make = some a := by
  subst hnames
  have hvalues : (members.map Prod.fst).map (fun name => List.lookup name members) =
      members.map fun m => some m.2 := by
    rw [List.map_map]
    apply List.map_congr_left
    intro m hm
    exact lookup_of_mem hnodup hm
  rw [members?, hvalues, Option.bind_some, hmake]

/-- The fields of a structure are the members of the object it is stored as. -/
theorem fields?_bind {names : List String} {members : List (String × Json)}
    {make : List (Option Json) → Option α} {a : α} (hnames : members.map Prod.fst = names)
    (hnodup : names.Nodup) (hmake : make (members.map fun m => some m.2) = some a) :
    (fields? names (.obj members)).bind make = some a := by
  have hobject : fields? names (.obj members) = members? names (.obj members) := rfl
  rw [hobject, members?_bind hnames hnodup hmake]

/-- A tag with a value is an object of one member. -/
theorem tagged?_bind {tag : String} {j : Json} {make : String × Option Json → Option α} {a : α}
    (hmake : make (tag, some j) = some a) : (tagged? (.obj [(tag, j)])).bind make = some a := by
  rw [tagged?, Option.bind_some, hmake]

end Ntfs.Json
