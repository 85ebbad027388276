import GhidraBridge.DataTypeApplier
import GhidraBridge.TypeAnnotations

/-! The layout of a structure a check-in sends. The server builds it from nothing: each
member goes to its offset at or beyond the current end, and what is missing to the declared
size is added behind the last one. Ghidra gives an empty structure the length 1, so one
without members ends up a byte short. -/
namespace GhidraBridge.StructLayout
open Lib ProgramApplier

/-! ## Entries -/

/-- An entry of a member with these values. -/
structure MemberReads (mel : Json) (m : ChangedMember) : Prop where
  object : mel.isObject = true
  name : mel.getStr "name" "" = some m.name
  typeName : mel.getStr "type_name" "" = some m.typeName
  comment : (mel.getStr "comment" "").isSome
  size : intOr mel "size" 0 = some m.size
  offset : intOr mel "offset" (-1) = some m.offset

/-- An entry that adds or updates a structure. -/
structure StructReads (el : Json) (name : String) (size : Int32) (members : List ChangedMember) : Prop where
  object : el.isObject = true
  op : ∃ op, el.getStr "op" "add" = some op ∧ op ≠ "delete"
  kind : el.getStr "kind" "" = some "struct"
  nameRead : el.getStr "name" "" = some name
  named : name ≠ ""
  sizeRead : intOr el "size" 0 = some size
  membersRead : ∃ mels, arrayOr el "members" = some mels ∧ List.Forall₂ MemberReads mels members

/-- An entry of any other type. -/
structure ReadsOther (name : String) (el : Json) : Prop where
  object : el.isObject = true
  op : (el.getStr "op" "add").isSome
  kind : (el.getStr "kind" "").isSome
  nameRead : ∃ other, el.getStr "name" "" = some other ∧ other ≠ name

/-! ## Layouts -/

/-- Where a member ends. -/
def stop (m : ChangedMember) : Int := m.offset.toInt + m.size.toInt

/-- Members sorted by offset that do not overlap, of positive sizes, within the declared size. -/
structure Fits (members : List ChangedMember) (size : Int32) : Prop where
  sorted : members.Pairwise fun a b => a.offset ≤ b.offset
  apart : members.Pairwise fun a b => stop a ≤ b.offset.toInt ∨ stop b ≤ a.offset.toInt
  placed : ∀ m ∈ members, 0 ≤ m.offset ∧ 0 < m.size
  within : ∀ m ∈ members, stop m ≤ size.toInt
  nonneg : 0 ≤ size

/-- The type of a member has the member's size, or does not resolve and becomes undefined bytes. -/
def ResolvesToSize (lib : TypeLibrary) (manager : DataTypeManager) (m : ChangedMember) : Prop :=
  ∃ found, resolveDataType lib manager m.typeName = some found ∧ ∀ type ∈ found, lib.getLength manager type = m.size

/-- What Ghidra does with a structure that grows at its end: what lies between the end and
an offset is padded, and an empty structure has the length 1. -/
structure LaysOut (lib : TypeLibrary) (manager : DataTypeManager) : Prop where
  insertAtOffset : ∀ s offset type length name comment, s.length ≤ offset → 0 < length →
    offset.toInt + length.toInt < 2 ^ 31 → lib.getLength manager type = length →
    lib.insertAtOffset s offset type length name comment =
      some { length := offset + length, components := s.components ++ [⟨name, offset, length, type, comment⟩] }
  growStructure : ∀ s amount, 0 < amount → lib.growStructure s amount = { s with length := s.length + amount }
  structureLength : ∀ s, lib.structureLength s = if s.length = 0 then 1 else s.length
  undefined : ∀ size, 0 < size → lib.getLength manager (.undefined size) = size

/-- Name, offset and length of a component. -/
def place (c : Component) : Option String × Int32 × Int32 := (c.fieldName, c.offset, c.length)

def declared (m : ChangedMember) : Option String × Int32 × Int32 := (nullIfEmpty m.name, m.offset, m.size)

/-- The components are the members as declared, and the length is the declared size. -/
def LayoutKept (layout : Layout) (members : List ChangedMember) (size : Int32) : Prop :=
  layout.length = size ∧ layout.components.map place = members.map declared

/-- The structure of this name in the root category has the declared layout. -/
def StructKept (manager : DataTypeManager) (name : String) (members : List ChangedMember) (size : Int32) : Prop :=
  ∃ record layout, manager.getDataType name = some record ∧ record.content = .composite false layout ∧
    LayoutKept layout members size

/-- What the entries before a turn have made of the types. -/
def typesBefore (lib : TypeLibrary) (manager : DataTypeManager) (changes before : List Json) : Option TypesApplied := do
  let stubbed ← changes.foldlM (applyStub lib) manager
  before.foldlM (applyTypeChange lib) { manager := stubbed }

/-! ## Placing the members -/

section Place
variable {lib : TypeLibrary} {manager : DataTypeManager} {members : List ChangedMember} {size : Int32}

private theorem toInt_add_of_lt {a b : Int32} (first : 0 ≤ a) (second : 0 ≤ b) (room : a.toInt + b.toInt < 2 ^ 31) :
    (a + b).toInt = a.toInt + b.toInt := by
  rw [Int32.le_iff_toInt_le, Int32.toInt_zero] at first second
  rw [Int32.toInt_add]
  exact Int.bmod_eq_of_le (by omega) (by omega)

/-- Each member ends before the next begins. -/
theorem Fits.ascending (fits : Fits members size) : members.Pairwise fun a b => stop a ≤ b.offset.toInt := by
  have positive : members.Pairwise fun _ b => 0 < b.size :=
    List.pairwise_of_forall_mem_list fun _ _ b member => (fits.placed b member).2
  refine (fits.sorted.and (fits.apart.and positive)).imp ?_
  rintro a b ⟨order, disjoint, wide⟩
  rw [Int32.le_iff_toInt_le] at order
  rw [Int32.lt_iff_toInt_lt, Int32.toInt_zero] at wide
  rcases disjoint with before | after
  · exact before
  · rw [stop] at after
    omega

theorem memberDataType_sized (laws : LaysOut lib manager) {m : ChangedMember} (positive : 0 < m.size)
    (resolves : ResolvesToSize lib manager m) :
    ∃ type, memberDataType lib manager m.typeName m.size = some type ∧ lib.getLength manager type = m.size := by
  obtain ⟨found, resolved, sized⟩ := resolves
  rw [memberDataType, resolved, if_pos positive]
  cases found with
  | none => exact ⟨_, rfl, laws.undefined m.size positive⟩
  | some type => exact ⟨type, rfl, sized type rfl⟩

/-- One member, at or beyond the end. -/
theorem placeMember_beyond (laws : LaysOut lib manager) {s : Layout} {mel : Json} {m : ChangedMember}
    (reads : MemberReads mel m) (placed : 0 ≤ m.offset ∧ 0 < m.size) (room : stop m < 2 ^ 31)
    (resolves : ResolvesToSize lib manager m) (beyond : s.length ≤ m.offset) :
    ∃ c, place c = declared m ∧
      placeMember lib manager s mel = some { length := m.offset + m.size, components := s.components ++ [c] } := by
  obtain ⟨comment, commented⟩ := Option.isSome_iff_exists.mp reads.comment
  obtain ⟨type, resolved, sized⟩ := memberDataType_sized laws placed.2 resolves
  refine ⟨⟨nullIfEmpty m.name, m.offset, m.size, type, nullIfEmpty comment⟩, rfl, ?_⟩
  rw [placeMember, if_neg (by simp [reads.object]), reads.name, reads.typeName, commented, reads.size, reads.offset]
  simp only [Option.bind_eq_bind, Option.bind_some]
  rw [resolved, Option.bind_some, if_pos placed.1, if_pos placed.2,
    laws.insertAtOffset s m.offset type m.size _ _ beyond placed.2 room sized]
  rfl

/-- The members one after another: the structure ends where the last of them does. -/
theorem placeMembers (laws : LaysOut lib manager) {mels : List Json} (reads : List.Forall₂ MemberReads mels members)
    (placed : ∀ m ∈ members, 0 ≤ m.offset ∧ 0 < m.size) (room : ∀ m ∈ members, stop m < 2 ^ 31)
    (resolves : ∀ m ∈ members, ResolvesToSize lib manager m)
    (ascending : members.Pairwise fun a b => stop a ≤ b.offset.toInt) {s : Layout}
    (beyond : ∀ m ∈ members, s.length ≤ m.offset) :
    ∃ final, mels.foldlM (placeMember lib manager) s = some final ∧
      final.components.map place = s.components.map place ++ members.map declared ∧
      final.length = ((members.getLast?).map fun m => m.offset + m.size).getD s.length := by
  induction reads generalizing s with
  | nil => exact ⟨s, rfl, by simp, rfl⟩
  | @cons mel m mels members read _ ih =>
    rw [List.forall_mem_cons] at placed room resolves beyond
    obtain ⟨ahead, rest⟩ := List.pairwise_cons.mp ascending
    obtain ⟨c, same, stepped⟩ := placeMember_beyond laws read placed.1 room.1 resolves.1 beyond.1
    have ends : (m.offset + m.size).toInt = stop m :=
      toInt_add_of_lt placed.1.1 (Int32.le_of_lt placed.1.2) room.1
    have further : ∀ later ∈ members, m.offset + m.size ≤ later.offset := by
      intro later member
      rw [Int32.le_iff_toInt_le, ends]
      exact ahead later member
    obtain ⟨final, run, components, length⟩ := ih
      (s := { length := m.offset + m.size, components := s.components ++ [c] })
      placed.2 room.2 resolves.2 rest further
    refine ⟨final, ?_, ?_, ?_⟩
    · rw [List.foldlM_cons, stepped]
      exact run
    · rw [components, List.map_append, List.map_singleton, same, List.map_cons, List.append_assoc]
      rfl
    · rw [length, List.getLast?_cons]
      cases members.getLast? <;> rfl

/-- The bytes behind the last member: after some member they come to the declared size,
after none they fall short of a size that is not 0. -/
theorem trailing (laws : LaysOut lib manager) (fits : Fits members size) {s : Layout}
    (ends : s.length = ((members.getLast?).map fun m => m.offset + m.size).getD 0) :
    ∃ final : Layout,
      (if lib.structureLength s < size then lib.growStructure s (size - lib.structureLength s) else s) = final ∧
      final.components = s.components ∧ (final.length = size ↔ (members = [] → size = 0)) := by
  have bound := Int32.toInt_lt size
  rw [laws.structureLength]
  cases last : members.getLast? with
  | none =>
    have empty : members = [] := List.getLast?_eq_none_iff.mp last
    have zero : s.length = 0 := by
      rw [ends, last]
      rfl
    rw [if_pos zero]
    by_cases more : 1 < size
    · rw [Int32.lt_iff_toInt_lt, Int32.toInt_one] at more
      have less : (size - 1).toInt = size.toInt - 1 := by
        rw [Int32.toInt_sub, Int32.toInt_one, Int.bmod_eq_of_le] <;> omega
      have positive : 0 < size - 1 := by
        rw [Int32.lt_iff_toInt_lt, less, Int32.toInt_zero]
        omega
      have short : s.length + (size - 1) ≠ size := by
        intro same
        rw [zero, Int32.zero_add] at same
        rw [same] at less
        omega
      have sizeNe : size ≠ 0 := by
        rintro rfl
        rw [Int32.toInt_zero] at more
        omega
      refine ⟨{ s with length := s.length + (size - 1) }, ?_, rfl, ?_⟩
      · rw [if_pos (Int32.lt_iff_toInt_lt.mpr (by rwa [Int32.toInt_one])), laws.growStructure s _ positive]
      · exact ⟨fun same => absurd same short, fun given => absurd (given empty) sizeNe⟩
    · refine ⟨s, if_neg more, rfl, ?_⟩
      rw [zero]
      exact ⟨fun same _ => same.symm, fun given => (given empty).symm⟩
  | some m =>
    have member : m ∈ members := List.mem_of_getLast? last
    have filled : members ≠ [] := List.ne_nil_of_mem member
    have ⟨offset, positive⟩ := fits.placed m member
    have within := fits.within m member
    have length : s.length.toInt = stop m := by
      rw [ends, last, Option.map_some, Option.getD_some]
      exact toInt_add_of_lt offset (Int32.le_of_lt positive) (by rw [stop] at within; omega)
    have wide : 0 < stop m := by
      rw [Int32.le_iff_toInt_le, Int32.toInt_zero] at offset
      rw [Int32.lt_iff_toInt_lt, Int32.toInt_zero] at positive
      rw [stop]
      omega
    have nonzero : s.length ≠ 0 := by
      intro zero
      rw [zero, Int32.toInt_zero] at length
      omega
    rw [if_neg nonzero]
    have nonneg : 0 ≤ s.length := by
      rw [Int32.le_iff_toInt_le, Int32.toInt_zero]
      omega
    have short : s.length ≤ size := by
      rw [Int32.le_iff_toInt_le]
      omega
    exact ⟨_, grown_to laws.growStructure nonneg short, rfl, fun _ empty => absurd empty filled, fun _ => rfl⟩

theorem rebuild_struct (laws : LaysOut lib manager) {el : Json} {name : String}
    (reads : StructReads el name size members) (fits : Fits members size)
    (resolves : ∀ m ∈ members, ResolvesToSize lib manager m) :
    ∃ layout, rebuild lib manager "struct" el = some (.composite false layout) ∧
      (LayoutKept layout members size ↔ (members = [] → size = 0)) := by
  obtain ⟨mels, listed, each⟩ := reads.membersRead
  have room : ∀ m ∈ members, stop m < 2 ^ 31 := by
    intro m member
    have within := fits.within m member
    have bound := Int32.toInt_lt size
    omega
  obtain ⟨s, run, components, ends⟩ := placeMembers (s := {}) laws each fits.placed room resolves fits.ascending
    fun m member => (fits.placed m member).1
  obtain ⟨final, made, same, whole⟩ := trailing laws fits ends
  refine ⟨final, ?_, ?_⟩
  · rw [rebuild, if_pos rfl, reads.sizeRead, listed]
    simp only [Option.bind_eq_bind, Option.bind_some, run, made]
    rfl
  · rw [LayoutKept, same, components]
    exact (and_iff_left rfl).trans whole

end Place

/-! ## The run -/

section Run
variable {lib : TypeLibrary} {name : String}

/-- An entry of another type gets through and leaves the structure alone. -/
theorem applyTypeChange_other {el : Json} (reads : ReadsOther name el) (applied : TypesApplied) :
    ∃ next, applyTypeChange lib applied el = some next ∧
      next.manager.getDataType name = applied.manager.getDataType name := by
  obtain ⟨op, opRead⟩ := Option.isSome_iff_exists.mp reads.op
  obtain ⟨kind, kindRead⟩ := Option.isSome_iff_exists.mp reads.kind
  obtain ⟨other, nameRead, apart⟩ := reads.nameRead
  have elsewhere : (rootCategory, name) ≠ (rootCategory, other) := fun same => apart (Prod.mk.inj same).2.symm
  rw [applyTypeChange, if_neg (by simp [reads.object]), opRead, kindRead, nameRead]
  simp only [Option.bind_eq_bind, Option.bind_some]
  split
  · exact ⟨applied, rfl, rfl⟩
  · split
    · refine ⟨_, rfl, ?_⟩
      rw [DataTypeManager.getDataType, Table.lookup_erase_eq, if_neg elsewhere]
      rfl
    · cases rebuild lib applied.manager kind el with
      | none => exact ⟨applied, rfl, rfl⟩
      | some content =>
        refine ⟨_, rfl, ?_⟩
        rw [DataTypeManager.getDataType, DataTypeManager.addDataType, Table.lookup_set, if_neg elsewhere]
        rfl

theorem applyTypeChanges_other {after : List Json} (others : ∀ el ∈ after, ReadsOther name el)
    (applied : TypesApplied) :
    ∃ final, after.foldlM (applyTypeChange lib) applied = some final ∧
      final.manager.getDataType name = applied.manager.getDataType name := by
  induction after generalizing applied with
  | nil => exact ⟨applied, rfl, rfl⟩
  | cons el rest ih =>
    rw [List.forall_mem_cons] at others
    obtain ⟨next, stepped, kept⟩ := @applyTypeChange_other lib name el others.1 applied
    obtain ⟨final, run, same⟩ := ih others.2 next
    refine ⟨final, ?_, same.trans kept⟩
    rw [List.foldlM_cons, stepped]
    exact run

/-- The turn of the structure. -/
theorem applyTypeChange_struct {el : Json} {size : Int32} {members : List ChangedMember}
    (reads : StructReads el name size members) {applied : TypesApplied} {content : TypeContent}
    (built : rebuild lib applied.manager "struct" el = some content) :
    ∃ next record, applyTypeChange lib applied el = some next ∧ next.manager.getDataType name = some record ∧
      record.content = content := by
  obtain ⟨op, opRead, edits⟩ := reads.op
  rw [applyTypeChange, if_neg (by simp [reads.object]), opRead, reads.kind, reads.nameRead]
  simp only [Option.bind_eq_bind, Option.bind_some]
  rw [if_neg reads.named, if_neg edits, built]
  have stored : (applied.manager.addDataType lib name content).1.getDataType name =
      some { id := (applied.manager.addDataType lib name content).2, content } := by
    rw [DataTypeManager.getDataType, DataTypeManager.addDataType, Table.lookup_set, if_pos rfl]
  exact ⟨_, _, rfl, stored, rfl⟩

/-- Among any other entries, and from any types, a structure is built as declared exactly
when it has a member or the declared size is 0. -/
theorem struct_layout_iff {manager : DataTypeManager} {before after : List Json} {el : Json} {start : TypesApplied}
    {size : Int32} {members : List ChangedMember}
    (reached : typesBefore lib manager (before ++ el :: after) before = some start) (laws : LaysOut lib start.manager)
    (reads : StructReads el name size members) (fits : Fits members size)
    (resolves : ∀ m ∈ members, ResolvesToSize lib start.manager m) (others : ∀ e ∈ after, ReadsOther name e) :
    (∃ applied, applyDataTypes lib manager (before ++ el :: after) = some applied ∧
        StructKept applied.manager name members size) ↔
      (members = [] → size = 0) := by
  obtain ⟨layout, built, kept⟩ := rebuild_struct laws reads fits resolves
  obtain ⟨next, record, stepped, stored, content⟩ := applyTypeChange_struct reads built
  obtain ⟨final, run, same⟩ := @applyTypeChanges_other lib name after others next
  obtain ⟨stubbed, stubs, turns⟩ := Option.bind_eq_some_iff.mp reached
  have whole : applyDataTypes lib manager (before ++ el :: after) = some final := by
    rw [applyDataTypes, stubs, Option.bind_eq_bind, Option.bind_some, List.foldlM_append, turns]
    simp only [Option.bind_eq_bind, Option.bind_some, List.foldlM_cons, stepped]
    exact run
  rw [← kept]
  constructor
  · rintro ⟨applied, ran, other, found, held, shape, preserved⟩
    cases whole.symm.trans ran
    rw [same, stored] at held
    cases held
    cases content.symm.trans shape
    exact preserved
  · exact fun preserved => ⟨final, whole, record, layout, same.trans stored, content, preserved⟩

end Run

/-- Undefined bytes have the length they are made with; the other types here have four bytes. -/
def sizedLibrary : TypeLibrary :=
  { TypeAnnotations.plainLibrary with
    getLength := fun _ type =>
      match type with
      | .undefined size => size
      | _ => 4 }

theorem sizedLibrary_laysOut (manager : DataTypeManager) : LaysOut sizedLibrary manager where
  insertAtOffset _ _ _ _ _ _ beyond _ _ _ := if_neg (Int32.not_lt.mpr beyond)
  growStructure _ _ _ := rfl
  structureLength _ := rfl
  undefined _ _ := rfl

/-- `len` at 4 and `crc` at 12, of four bytes each, in a structure of 24 bytes. -/
def gappedMembers : List ChangedMember :=
  [{ name := "len", offset := 4, size := 4, typeName := "int" },
    { name := "crc", offset := 12, size := 4, typeName := "int" }]

def gappedEntry : Json :=
  .obj [("op", .str "add"), ("kind", .str "struct"), ("name", .str "Packet"), ("size", .int 24),
    ("members", .arr (gappedMembers.map CheckinJson.memberEntry))]

theorem gapped_struct_kept :
    ∃ applied, applyDataTypes sizedLibrary ∅ [gappedEntry] = some applied ∧
      StructKept applied.manager "Packet" gappedMembers 24 := by
  have member (m : ChangedMember) : MemberReads (CheckinJson.memberEntry m) m :=
    ⟨rfl, rfl, rfl, rfl, Json.getAsInt_toInt m.size, Json.getAsInt_toInt m.offset⟩
  have reads : StructReads gappedEntry "Packet" 24 gappedMembers :=
    ⟨rfl, ⟨"add", rfl, by decide⟩, rfl, rfl, by decide, rfl, _, rfl, .cons (member _) (.cons (member _) .nil)⟩
  have fits : Fits gappedMembers 24 := ⟨by decide, by decide, by decide, by decide, by decide⟩
  let stubbed := (DataTypeManager.addDataType sizedLibrary ∅ "Packet" (.composite false { length := 24 })).1
  have reached : typesBefore sizedLibrary ∅ ([] ++ gappedEntry :: []) [] = some { manager := stubbed } := by
    rw [typesBefore, List.nil_append, List.foldlM_cons, applyStub, if_neg (by decide)]
    rfl
  have resolves : ∀ m ∈ gappedMembers, ResolvesToSize sizedLibrary stubbed m := by
    have named : ∀ m ∈ gappedMembers, m.typeName = "int" ∧ m.size = 4 := by decide
    intro m member
    refine ⟨some (.parsed "int"), ?_, ?_⟩
    · rw [(named m member).1]
      rfl
    · intro type found
      cases found
      exact (named m member).2.symm
  exact (struct_layout_iff reached (sizedLibrary_laysOut _) reads fits resolves (by simp)).mpr (by simp [gappedMembers])

/-- A structure of eight bytes without members. -/
def blobEntry : Json :=
  .obj [("op", .str "add"), ("kind", .str "struct"), ("name", .str "Blob"), ("size", .int 8)]

/-- The structure is a byte short: of the eight bytes asked for, one is taken to be there. -/
theorem empty_struct_short :
    StructReads blobEntry "Blob" 8 [] ∧ Fits [] 8 ∧
      ∃ applied, applyDataTypes sizedLibrary ∅ [blobEntry] = some applied ∧
        (applied.manager.getDataType "Blob").map DataTypeRecord.content = some (.composite false { length := 7 }) ∧
        ¬StructKept applied.manager "Blob" [] 8 := by
  refine ⟨⟨rfl, ⟨"add", rfl, by decide⟩, rfl, rfl, by decide, rfl, _, rfl, .nil⟩, ⟨.nil, .nil, nofun, nofun, by decide⟩,
    _, rfl, rfl, ?_⟩
  rintro ⟨record, layout, held, shape, length, _⟩
  cases held
  cases shape
  exact absurd length (by decide)

end GhidraBridge.StructLayout
