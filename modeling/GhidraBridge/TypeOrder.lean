import GhidraBridge.DataTypeNames

/-! The order of the type changes of a check-in. The first pass makes an empty
type for every new structure, union and enum, so that the second can build an
entry before the types it names; there is none for a typedef. -/
namespace GhidraBridge.TypeOrder
open Lib Lib.Fold ProgramApplier DataTypeEntries

/-! ## Entries and what they name -/

/-- The type names the second pass resolves for an entry. -/
def references (dt : DataTypeChange) : List String :=
  match dt.kind with
  | .struct | .union => dt.members.map ChangedMember.typeName
  | .typedef => [dt.underlyingTypeName]
  | .enum | .other _ => []

/-- The first pass makes an empty type for the entry: no typedef has one, nor a
structure of a negative size or an enum of more than eight bytes. -/
def HasStub (dt : DataTypeChange) : Prop :=
  match dt.kind with
  | .struct => 0 ≤ dt.size
  | .union => True
  | .enum => dt.size ≤ 8
  | .typedef | .other _ => False

section
variable (lib : TypeLibrary) (builtIn : List Char → Prop) (manager : DataTypeManager) (changes : List DataTypeChange)

/-- An entry names a type, behind whatever suffixes and under the name the server
looks for. -/
def RefersTo (dt : DataTypeChange) (target : String) : Prop :=
  ∃ name : SuffixedName, String.ofList name.text ∈ references dt ∧
    String.ofList (name.normalized lib).base.text = target

/-- Additions and updates of distinct names, whose references end in the list, in the
program or in a built-in type. They may form cycles. -/
structure ClosedChanges : Prop where
  edits : ∀ dt ∈ changes, dt.op ≠ .delete
  kinds : ∀ dt ∈ changes, ∀ text, dt.kind ≠ .other text
  named : ∀ dt ∈ changes, ∃ base : BaseName, dt.name = String.ofList base.text
  distinct : (changes.map DataTypeChange.name).Nodup
  closed : ∀ dt ∈ changes, ∀ text ∈ references dt, ∃ name : SuffixedName, text = String.ofList name.text ∧
    (Known builtIn manager (name.normalized lib).base.text ∨
      ∃ other ∈ changes, other.name = String.ofList (name.normalized lib).base.text)

/-- Every enum fits, and what an entry names of the list is in the root category
already or gets a stub. -/
structure StandsReady : Prop where
  enums : ∀ dt ∈ changes, dt.kind = .enum → dt.size ≤ 8
  stubs : ∀ dt ∈ changes, ∀ other ∈ changes, RefersTo lib dt other.name →
    (manager.getDataType other.name).isSome ∨ HasStub other

/-- No name stands for two types: the root category has none that is spelled like a
suffixed name, and a listed type it lacks is no built-in type and in no other
category. -/
structure Unambiguous : Prop where
  plain : ∀ name, (manager.getDataType name).isSome → ∀ c ∈ name.toList, opensSuffix c = false
  fresh : ∀ dt ∈ changes, manager.getDataType dt.name = none → ¬Known builtIn manager dt.name.toList

/-! ## Any order -/

/-- The types are the same, whatever ids they were given. -/
def SameTypes (first second : DataTypeManager) : Prop :=
  ∀ path, (first.lookup path).map (fun record => (record.description, record.content)) =
    (second.lookup path).map fun record => (record.description, record.content)

/-- The types when the turn of the entry behind `done` comes. -/
def atTurn (order done : List DataTypeChange) : Option TypesApplied :=
  ((order.map CheckinJson.dataTypeEntry).foldlM (applyStub lib) manager).bind fun stubbed =>
    (done.map CheckinJson.dataTypeEntry).foldlM (applyTypeChange lib) { manager := stubbed }

/-- The program when the turn of the entry comes in one of the orders. -/
def MetAt (dt : DataTypeChange) (current : DataTypeManager) : Prop :=
  ∃ order done later before, order.Perm changes ∧ order = done ++ dt :: later ∧
    atTurn lib manager order done = some before ∧ before.manager = current

/-- A structure or union whose members have the types of one program and, where they do
not say how long they are, the lengths of another. -/
def layoutWith (types lengths : DataTypeManager) (dt : DataTypeChange) : Option Layout :=
  match dt.kind with
  | .struct =>
    (dt.members.foldlM (fun s m => (memberDataType lib types m.typeName m.size).map fun type =>
      (if 0 ≤ m.offset then
          lib.insertAtOffset s m.offset type (placedLength lib lengths m type) (nullIfEmpty m.name) none
        else lib.add s type (placedLength lib lengths m type) (nullIfEmpty m.name) none).getD s) {}).map fun s =>
      if lib.structureLength s < dt.size then lib.growStructure s (dt.size - lib.structureLength s) else s
  | .union =>
    dt.members.foldlM (fun u m => (memberDataType lib types m.typeName m.size).map fun type =>
      (lib.addToUnion u type (placedLength lib lengths m type) (nullIfEmpty m.name) none).getD u) {}
  | .enum | .typedef | .other _ => some {}

/-- It makes no difference to a structure or union at which of its turns its members are
measured. -/
def LaidOutAlike : Prop :=
  ∀ dt ∈ changes, ∀ first second, MetAt lib manager changes dt first → MetAt lib manager changes dt second →
    layoutWith lib first first dt = layoutWith lib first second dt

/-- Every member says how long it is, or is of a type that is as long at one turn of its
entry as at any other. -/
def Measured : Prop :=
  ∀ dt ∈ changes, ∀ m ∈ dt.members, 0 < m.size ∨
    ∀ first second, MetAt lib manager changes dt first → MetAt lib manager changes dt second →
      ∀ type, memberDataType lib first m.typeName m.size = some type →
        lib.getLength first type = lib.getLength second type

/-- Every order gives the same types; every entry is built in its turn and stays as
it was built, and every type name it was built with stood for what it stands for at
the end. -/
def SettlesInAnyOrder : Prop :=
  ∃ reference, applyDataTypes lib manager (changes.map CheckinJson.dataTypeEntry) = some reference ∧
    ∀ order, order.Perm changes →
      ∃ applied, applyDataTypes lib manager (order.map CheckinJson.dataTypeEntry) = some applied ∧
        SameTypes applied.manager reference.manager ∧
        ∀ done dt later, order = done ++ dt :: later →
          ∃ before, atTurn lib manager order done = some before ∧
            (∃ record, applied.manager.getDataType dt.name = some record ∧
              rebuild lib before.manager dt.kind.text (CheckinJson.dataTypeEntry dt) = some record.content) ∧
            ∀ text ∈ references dt, ∃ type, resolveDataType lib before.manager text = some (some type) ∧
              resolveDataType lib applied.manager text = some (some type)

end

/-! ## The first pass -/

section Stubs
variable {lib : TypeLibrary}

theorem stubContent_isSome {dt : DataTypeChange} (kind : ∀ text, dt.kind ≠ .other text) :
    (stubContent dt.kind.text (CheckinJson.dataTypeEntry dt)).isSome ↔ HasStub dt := by
  cases shape : dt.kind with
  | struct =>
    simp only [TypeKind.text, stubContent, if_true, size_read, Option.bind_some, HasStub, shape]
    have sign : ¬dt.size < 0 ↔ 0 ≤ dt.size := by
      rw [Int32.lt_iff_toInt_lt, Int32.le_iff_toInt_le, Int.not_lt]
    rw [← sign]
    by_cases negative : dt.size < 0
    · simp [negative]
    · simp [negative]
  | union => simp [TypeKind.text, stubContent, HasStub, shape]
  | enum => simp [TypeKind.text, stubContent, size_read, HasStub, shape, enumLength_isSome]
  | typedef => simp [TypeKind.text, stubContent, HasStub, shape]
  | other text => exact absurd shape (kind text)

/-- One entry of the first pass: a name the root category lacks gets its stub. -/
theorem applyStub_eq (manager : DataTypeManager) {dt : DataTypeChange} (named : dt.name ≠ "") (edit : dt.op ≠ .delete) :
    applyStub lib manager (CheckinJson.dataTypeEntry dt) =
      some (match manager.getDataType dt.name, stubContent dt.kind.text (CheckinJson.dataTypeEntry dt) with
        | none, some content => (manager.addDataType lib dt.name content).1
        | _, _ => manager) := by
  have skip : ¬(dt.name = "" ∨ dt.op.text = "delete") := by
    rw [text_eq_delete]
    exact fun either => either.elim named edit
  rw [applyStub, if_neg (by simp [CheckinJson.dataTypeEntry, Json.isObject]), op_read, kind_read, name_read]
  simp only [Option.bind_eq_bind, Option.bind_some]
  rw [if_neg skip]
  cases manager.getDataType dt.name with
  | some found => rfl
  | none => cases stubContent dt.kind.text (CheckinJson.dataTypeEntry dt) <;> rfl

end Stubs

/-! ## What both passes keep -/

section Standing
variable {lib : TypeLibrary} {builtIn : List Char → Prop}
  {refer : DataTypeManager → List Char → List Suffix → DataTypeRef}
  {manager : DataTypeManager} {changes : List DataTypeChange}

/-- Between the first pass and the end: only listed types of the root category are
touched, nothing is lost and every stub is there. -/
structure Standing (manager : DataTypeManager) (changes : List DataTypeChange) (current : DataTypeManager) :
    Prop where
  kept : ∀ path, (∀ dt ∈ changes, path ≠ (rootCategory, dt.name)) → current.lookup path = manager.lookup path
  there : ∀ path, (manager.lookup path).isSome → (current.lookup path).isSome
  stubbed : ∀ dt ∈ changes, HasStub dt → (current.getDataType dt.name).isSome

theorem storedRef_congr {first second : DataTypeManager} {name : String}
    (same : (first.getDataType name).isSome = (second.getDataType name).isSome) :
    storedRef first name = storedRef second name := by
  rw [storedRef, storedRef]
  cases one : first.getDataType name with
  | none =>
    rw [one] at same
    rw [Option.isSome_eq_false_iff.mp same.symm |> Option.isNone_iff_eq_none.mp]
  | some record =>
    rw [one] at same
    obtain ⟨other, two⟩ := Option.isSome_iff_exists.mp same.symm
    rw [two]
    rfl

/-- The names an entry refers to are found in the same categories at every time. -/
theorem Standing.base_isSome (ready : StandsReady lib manager changes) {first second : DataTypeManager}
    (one : Standing manager changes first) (two : Standing manager changes second)
    {dt : DataTypeChange} (member : dt ∈ changes) {target : String} (names : RefersTo lib dt target)
    (category : String) : (first.lookup (category, target)).isSome = (second.lookup (category, target)).isSome := by
  have rooted {current : DataTypeManager} (standing : Standing manager changes current)
      {other : DataTypeChange} (listed : other ∈ changes) (named : other.name = target) :
      (current.lookup (rootCategory, target)).isSome = true := by
    subst named
    rcases ready.stubs dt member other listed names with held | stub
    · exact standing.there _ held
    · exact standing.stubbed other listed stub
  by_cases listed : ∃ other ∈ changes, (category, target) = (rootCategory, other.name)
  · obtain ⟨other, inside, path⟩ := listed
    cases path
    rw [rooted one inside rfl, rooted two inside rfl]
  · have elsewhere : ∀ other ∈ changes, (category, target) ≠ (rootCategory, other.name) := by
      intro other inside path
      exact listed ⟨other, inside, path⟩
    rw [one.kept _ elsewhere, two.kept _ elsewhere]

/-- A suffixed name is no listed name. -/
theorem listed_unsuffixed (closed : ClosedChanges lib builtIn manager changes) {other : DataTypeChange}
    (listed : other ∈ changes) {name : SuffixedName} (spelled : other.name = String.ofList name.text) :
    name.text = name.base.text := by
  obtain ⟨base, named⟩ := closed.named other listed
  have same : base.text = name.text := String.ofList_inj.mp (named.symm.trans spelled)
  rcases spacedText_head name.suffixes with empty | ⟨first, rest, shape, opening⟩
  · rw [SuffixedName.text, empty, List.append_nil]
  · have inside : first ∈ base.text := by
      rw [same, SuffixedName.text, shape]
      simp
    rw [base.opensNone first inside] at opening
    cases opening

/-- Every type name of an entry resolves, and at every time to the same type. -/
theorem Standing.resolves (law : ParsesNames lib builtIn refer) (closed : ClosedChanges lib builtIn manager changes)
    (ready : StandsReady lib manager changes) {first second : DataTypeManager}
    (one : Standing manager changes first) (two : Standing manager changes second)
    {dt : DataTypeChange} (member : dt ∈ changes) {text : String} (named : text ∈ references dt) :
    ∃ type, resolveDataType lib first text = some (some type) ∧ resolveDataType lib second text = some (some type) := by
  obtain ⟨name, rfl, found⟩ := closed.closed dt member text named
  have names : RefersTo lib dt (String.ofList (name.normalized lib).base.text) := ⟨name, named, rfl⟩
  have bases := one.base_isSome ready two member names
  have known {current : DataTypeManager} (standing : Standing manager changes current) :
      Known builtIn current (name.normalized lib).base.text := by
    rcases found with (builtin | ⟨category, held⟩) | ⟨other, listed, same⟩
    · exact .inl builtin
    · exact .inr ⟨category, standing.there _ held⟩
    · refine .inr ⟨rootCategory, ?_⟩
      rcases ready.stubs dt member other listed (same ▸ names) with held | stub
      · exact standing.there _ (same ▸ held)
      · rw [← same]
        exact standing.stubbed other listed stub
  have direct : storedRef first (String.ofList (name.normalized lib).text) =
      storedRef second (String.ofList (name.normalized lib).text) := by
    apply storedRef_congr
    by_cases listed : ∃ other ∈ changes, other.name = String.ofList (name.normalized lib).text
    · obtain ⟨other, inside, spelled⟩ := listed
      rw [listed_unsuffixed closed inside spelled]
      exact bases rootCategory
    · have elsewhere : ∀ other ∈ changes,
          (rootCategory, String.ofList (name.normalized lib).text) ≠ (rootCategory, other.name) := by
        intro other inside path
        exact listed ⟨other, inside, (Prod.mk.inj path).2.symm⟩
      rw [DataTypeManager.getDataType, DataTypeManager.getDataType, one.kept _ elsewhere, two.kept _ elsewhere]
  rw [resolveDataType_suffixed law, resolveDataType_suffixed law, if_pos (known one), if_pos (known two), direct,
    law.byName first second _ _ bases]
  cases storedRef second (String.ofList (name.normalized lib).text) with
  | none => exact ⟨_, rfl, rfl⟩
  | some stored => exact ⟨_, rfl, rfl⟩

/-- A member is of the same type at every time. -/
theorem Standing.member (law : ParsesNames lib builtIn refer) (closed : ClosedChanges lib builtIn manager changes)
    (ready : StandsReady lib manager changes) {first second : DataTypeManager}
    (one : Standing manager changes first) (two : Standing manager changes second)
    {dt : DataTypeChange} (inside : dt ∈ changes) (composite : dt.kind = .struct ∨ dt.kind = .union)
    {m : ChangedMember} (placed : m ∈ dt.members) :
    ∃ type, memberDataType lib first m.typeName m.size = some type ∧
      memberDataType lib second m.typeName m.size = some type := by
  have named : m.typeName ∈ references dt := by
    rcases composite with kind | kind <;> simpa [references, kind] using ⟨m, placed, rfl⟩
  obtain ⟨type, left, right⟩ := one.resolves law closed ready two inside named
  refine ⟨type, ?_, ?_⟩
  · rw [memberDataType, left]
    rfl
  · rw [memberDataType, right]
    rfl

/-- What is built of a structure or union is its layout. -/
theorem rebuild_composite (current : DataTypeManager) {dt : DataTypeChange}
    (composite : dt.kind = .struct ∨ dt.kind = .union) :
    rebuild lib current dt.kind.text (CheckinJson.dataTypeEntry dt) =
      (layoutWith lib current current dt).map (.composite (dt.kind == .union)) := by
  rcases composite with kind | kind
  · rw [kind, TypeKind.text, rebuild, if_pos rfl, members_read, size_read, layoutWith, kind]
    simp only [Option.bind_eq_bind, Option.bind_some, List.foldlM_map, placeMember_entry]
    rw [Option.map_map]
    exact Option.map_eq_bind.symm
  · rw [kind, TypeKind.text, rebuild, if_neg (by decide), if_pos rfl, members_read, layoutWith, kind]
    simp only [Option.bind_eq_bind, Option.bind_some, List.foldlM_map, addUnionMember_entry]
    exact Option.map_eq_bind.symm

/-- The layout of an entry with given lengths is the same at every time. -/
theorem Standing.layout (law : ParsesNames lib builtIn refer) (closed : ClosedChanges lib builtIn manager changes)
    (ready : StandsReady lib manager changes) {first second : DataTypeManager}
    (one : Standing manager changes first) (two : Standing manager changes second)
    {dt : DataTypeChange} (inside : dt ∈ changes) (lengths : DataTypeManager) :
    layoutWith lib first lengths dt = layoutWith lib second lengths dt := by
  rw [layoutWith, layoutWith]
  cases kind : dt.kind with
  | struct =>
    refine congrArg (Option.map _) (foldlM_congr_mem (fun s m placed => ?_) _)
    obtain ⟨type, left, right⟩ := one.member law closed ready two inside (.inl kind) placed
    rw [left, right]
  | union =>
    refine foldlM_congr_mem (fun u m placed => ?_) _
    obtain ⟨type, left, right⟩ := one.member law closed ready two inside (.inr kind) placed
    rw [left, right]
  | enum => rfl
  | typedef => rfl
  | other text => rfl

/-- An entry can be built at every time. -/
theorem Standing.builds (law : ParsesNames lib builtIn refer) (closed : ClosedChanges lib builtIn manager changes)
    (ready : StandsReady lib manager changes) {current : DataTypeManager}
    (standing : Standing manager changes current) {dt : DataTypeChange} (inside : dt ∈ changes) :
    (rebuild lib current dt.kind.text (CheckinJson.dataTypeEntry dt)).isSome := by
  have resolves {m : ChangedMember} (composite : dt.kind = .struct ∨ dt.kind = .union) (placed : m ∈ dt.members) :
      (resolveDataType lib current m.typeName).isSome := by
    obtain ⟨type, given, _⟩ := standing.member law closed ready standing inside composite placed
    rw [← memberDataType_isSome, given]
    rfl
  cases kind : dt.kind with
  | struct => exact (rebuild_struct_isSome dt).mpr fun m placed => resolves (.inl kind) placed
  | union => exact (rebuild_union_isSome dt).mpr fun m placed => resolves (.inr kind) placed
  | enum => exact (rebuild_enum_isSome dt).mpr (ready.enums dt inside kind)
  | typedef =>
    obtain ⟨type, left, _⟩ := standing.resolves law closed ready standing inside
      (show dt.underlyingTypeName ∈ references dt by simp [references, kind])
    exact (rebuild_typedef_isSome dt).mpr ⟨type, left⟩
  | other text => exact absurd kind (closed.kinds dt inside text)

/-- An entry is built alike at two times exactly where the lengths of the two lay it
out alike. -/
theorem Standing.rebuilds_iff (law : ParsesNames lib builtIn refer)
    (closed : ClosedChanges lib builtIn manager changes) (ready : StandsReady lib manager changes)
    {first second : DataTypeManager} (one : Standing manager changes first) (two : Standing manager changes second)
    {dt : DataTypeChange} (inside : dt ∈ changes) :
    rebuild lib first dt.kind.text (CheckinJson.dataTypeEntry dt) =
        rebuild lib second dt.kind.text (CheckinJson.dataTypeEntry dt) ↔
      layoutWith lib first first dt = layoutWith lib first second dt := by
  have composed (composite : dt.kind = .struct ∨ dt.kind = .union) :
      rebuild lib first dt.kind.text (CheckinJson.dataTypeEntry dt) =
          rebuild lib second dt.kind.text (CheckinJson.dataTypeEntry dt) ↔
        layoutWith lib first first dt = layoutWith lib first second dt := by
    rw [rebuild_composite first composite, rebuild_composite second composite,
      one.layout law closed ready two inside second]
    refine (Option.map_injective fun left right same => ?_).eq_iff
    injection same
  cases kind : dt.kind with
  | struct => exact kind ▸ composed (.inl kind)
  | union => exact kind ▸ composed (.inr kind)
  | enum =>
    -- no type name is looked for while an enum is built
    rw [layoutWith, layoutWith, kind, TypeKind.text, rebuild, rebuild, if_neg (by decide), if_neg (by decide),
      if_pos rfl, if_neg (by decide), if_neg (by decide), if_pos rfl]
    exact iff_of_true rfl rfl
  | typedef =>
    obtain ⟨type, left, right⟩ := one.resolves law closed ready two inside
      (show dt.underlyingTypeName ∈ references dt by simp [references, kind])
    rw [layoutWith, layoutWith, kind, TypeKind.text, rebuild, rebuild, if_neg (by decide), if_neg (by decide),
      if_neg (by decide), if_pos rfl, if_neg (by decide), if_neg (by decide), if_neg (by decide), if_pos rfl,
      underlying_read]
    simp only [Option.bind_eq_bind, Option.bind_some, left, right]
  | other text => exact absurd kind (closed.kinds dt inside text)

/-- Members that are measured alike are laid out alike. -/
theorem Measured.laidOutAlike (measured : Measured lib manager changes) : LaidOutAlike lib manager changes := by
  intro dt inside first second one two
  have placed {m : ChangedMember} (member : m ∈ dt.members) {type : DataTypeRef}
      (given : memberDataType lib first m.typeName m.size = some type) :
      placedLength lib first m type = placedLength lib second m type := by
    rw [placedLength, placedLength]
    rcases measured dt inside m member with sized | fixed
    · rw [if_pos sized, if_pos sized]
    · rw [fixed first second one two type given]
  rw [layoutWith, layoutWith]
  cases dt.kind with
  | struct =>
    refine congrArg (Option.map _) (foldlM_congr_mem (fun s m member => Option.map_congr fun type given => ?_) _)
    rw [placed member given]
  | union =>
    refine foldlM_congr_mem (fun u m member => Option.map_congr fun type given => ?_) _
    rw [placed member given]
  | enum => rfl
  | typedef => rfl
  | other text => rfl

end Standing

/-! ## The two passes over any order -/

section Passes
variable {lib : TypeLibrary} {builtIn : List Char → Prop}
  {refer : DataTypeManager → List Char → List Suffix → DataTypeRef}
  {manager : DataTypeManager} {changes : List DataTypeChange}

theorem ClosedChanges.name_ne_empty (closed : ClosedChanges lib builtIn manager changes) {dt : DataTypeChange}
    (inside : dt ∈ changes) : dt.name ≠ "" := by
  obtain ⟨base, named⟩ := closed.named dt inside
  rw [named]
  intro empty
  exact base.nonempty (by simpa using congrArg String.toList empty)

/-- The first pass keeps the program and makes a stub for every entry that has one. -/
theorem stubs_stand (closed : ClosedChanges lib builtIn manager changes) {order : List DataTypeChange}
    (listed : ∀ dt ∈ order, dt ∈ changes) :
    ∃ stubbed, (order.map CheckinJson.dataTypeEntry).foldlM (applyStub lib) manager = some stubbed ∧
      (∀ path, (∀ dt ∈ order, HasStub dt → path ≠ (rootCategory, dt.name)) →
        stubbed.lookup path = manager.lookup path) ∧
      (∀ path, (manager.lookup path).isSome → (stubbed.lookup path).isSome) ∧
      ∀ dt ∈ order, HasStub dt → (stubbed.getDataType dt.name).isSome := by
  induction order using List.reverseRecOn with
  | nil => exact ⟨manager, rfl, fun _ _ => rfl, fun _ held => held, by simp⟩
  | append_singleton front last ih =>
    obtain ⟨middle, run, kept, there, stubbed⟩ := ih fun dt member => listed dt (List.mem_append_left _ member)
    have inside := listed last (by simp)
    have stepped := @applyStub_eq lib middle last (closed.name_ne_empty inside) (closed.edits last inside)
    have stubs := @stubContent_isSome last (closed.kinds last inside)
    have through : ((front ++ [last]).map CheckinJson.dataTypeEntry).foldlM (applyStub lib) manager =
        applyStub lib middle (CheckinJson.dataTypeEntry last) := by
      rw [List.map_append, List.foldlM_append, run]
      simp
    rw [through, stepped]
    refine ⟨_, rfl, ?_⟩
    cases found : middle.getDataType last.name with
    | some record =>
      refine ⟨fun path apart => kept path fun dt member => apart dt (by simp [member]), there, ?_⟩
      intro dt member stub
      rcases List.mem_append.mp member with before | here
      · exact stubbed dt before stub
      · rw [List.mem_singleton.mp here, found]
        rfl
    | none =>
      cases content : stubContent last.kind.text (CheckinJson.dataTypeEntry last) with
      | none =>
        refine ⟨fun path apart => kept path fun dt member => apart dt (by simp [member]), there, ?_⟩
        intro dt member stub
        rcases List.mem_append.mp member with before | here
        · exact stubbed dt before stub
        · rw [List.mem_singleton.mp here, ← stubs, content] at stub
          cases stub
      | some made =>
        have own : HasStub last := stubs.mp (by rw [content]; rfl)
        dsimp only
        refine ⟨?_, ?_, ?_⟩
        · intro path apart
          rw [DataTypeManager.addDataType, Table.lookup_set, if_neg (apart last (by simp) own)]
          exact kept path fun dt member => apart dt (by simp [member])
        · intro path held
          rw [DataTypeManager.addDataType, Table.lookup_set]
          split
          · rfl
          · exact there path held
        · intro dt member stub
          rw [DataTypeManager.getDataType, DataTypeManager.addDataType, Table.lookup_set]
          split
          · rfl
          · rename_i other
            rcases List.mem_append.mp member with before | here
            · exact stubbed dt before stub
            · rw [List.mem_singleton.mp here] at other
              exact absurd rfl other

/-- The second pass over entries of distinct names: each of them is built in its turn
and stays. -/
theorem changes_stand (law : ParsesNames lib builtIn refer) (closed : ClosedChanges lib builtIn manager changes)
    (ready : StandsReady lib manager changes) {todo : List DataTypeChange}
    (listed : ∀ dt ∈ todo, dt ∈ changes) (distinct : (todo.map DataTypeChange.name).Nodup) {start : TypesApplied}
    (standing : Standing manager changes start.manager) :
    ∃ final, (todo.map CheckinJson.dataTypeEntry).foldlM (applyTypeChange lib) start = some final ∧
      Standing manager changes final.manager ∧
      (∀ path, (∀ dt ∈ todo, path ≠ (rootCategory, dt.name)) →
        final.manager.lookup path = start.manager.lookup path) ∧
      ∀ done dt later, todo = done ++ dt :: later →
        ∃ before, (done.map CheckinJson.dataTypeEntry).foldlM (applyTypeChange lib) start = some before ∧
          Standing manager changes before.manager ∧
          ∃ record, final.manager.getDataType dt.name = some record ∧ record.description = "" ∧
            rebuild lib before.manager dt.kind.text (CheckinJson.dataTypeEntry dt) = some record.content := by
  induction todo generalizing start with
  | nil =>
    refine ⟨start, rfl, standing, fun _ _ => rfl, ?_⟩
    intro done dt later shape
    simp at shape
  | cons first rest ih =>
    have inside := listed first List.mem_cons_self
    obtain ⟨absent, others⟩ := List.nodup_cons.mp distinct
    obtain ⟨next, stepped, turn⟩ := @applyTypeChange_turn lib start first
    obtain ⟨content, built⟩ := Option.isSome_iff_exists.mp
      (standing.builds law closed ready inside)
    have made : next.manager = (start.manager.addDataType lib first.name content).1 := by
      generalize next.manager = after at turn
      cases turn with
      | skipped unnamed => exact absurd unnamed (closed.name_ne_empty inside)
      | deleted _ deletes => exact absurd deletes (closed.edits first inside)
      | refused _ _ none => rw [built] at none; cases none
      | replaced _ _ same =>
        rw [built] at same
        cases same
        rfl
    have lookup (path : String × String) : next.manager.lookup path =
        if path = (rootCategory, first.name) then
          some ⟨((start.manager.getDataType first.name).map DataTypeRecord.id).getD (lib.newId start.manager), "",
            content⟩
        else start.manager.lookup path := by
      rw [made, DataTypeManager.addDataType, Table.lookup_set]
    have stands : Standing manager changes next.manager := by
      constructor
      · intro path apart
        rw [lookup, if_neg (apart first inside)]
        exact standing.kept path apart
      · intro path held
        rw [lookup]
        split
        · rfl
        · exact standing.there path held
      · intro dt member stub
        rw [DataTypeManager.getDataType, lookup]
        split
        · rfl
        · exact standing.stubbed dt member stub
    obtain ⟨final, run, settled, kept, turns⟩ :=
      ih (fun dt member => listed dt (List.mem_cons_of_mem _ member)) others stands
    have through (items : List DataTypeChange) :
        ((first :: items).map CheckinJson.dataTypeEntry).foldlM (applyTypeChange lib) start =
          (items.map CheckinJson.dataTypeEntry).foldlM (applyTypeChange lib) next := by
      rw [List.map_cons, List.foldlM_cons, stepped]
      rfl
    refine ⟨final, by rw [through, run], settled, ?_, ?_⟩
    · intro path apart
      rw [kept path fun dt member => apart dt (List.mem_cons_of_mem _ member), lookup,
        if_neg (apart first List.mem_cons_self)]
    · intro done dt later shape
      cases done with
      | nil =>
        obtain ⟨rfl, rfl⟩ := List.cons.inj shape
        have apart : ∀ other ∈ rest, (rootCategory, first.name) ≠ (rootCategory, other.name) := by
          intro other member same
          exact absent (List.mem_map.mpr ⟨other, member, (Prod.mk.inj same).2.symm⟩)
        have held := kept _ apart
        rw [lookup, if_pos rfl] at held
        exact ⟨start, rfl, standing, _, held, rfl, built⟩
      | cons head tail =>
        obtain ⟨rfl, rfl⟩ := List.cons.inj shape
        obtain ⟨before, ran, rest⟩ := turns tail dt later rfl
        exact ⟨before, by rw [through, ran], rest⟩

/-- Both passes over a permutation of the changes. -/
theorem order_stands (law : ParsesNames lib builtIn refer) (closed : ClosedChanges lib builtIn manager changes)
    (ready : StandsReady lib manager changes) {order : List DataTypeChange}
    (permuted : order.Perm changes) :
    ∃ applied, applyDataTypes lib manager (order.map CheckinJson.dataTypeEntry) = some applied ∧
      Standing manager changes applied.manager ∧
      ∀ done dt later, order = done ++ dt :: later →
        ∃ before, atTurn lib manager order done = some before ∧ Standing manager changes before.manager ∧
          ∃ record, applied.manager.getDataType dt.name = some record ∧ record.description = "" ∧
            rebuild lib before.manager dt.kind.text (CheckinJson.dataTypeEntry dt) = some record.content := by
  have listed : ∀ dt ∈ order, dt ∈ changes := fun dt member => permuted.mem_iff.mp member
  have distinct : (order.map DataTypeChange.name).Nodup :=
    (permuted.map DataTypeChange.name).nodup_iff.mpr closed.distinct
  obtain ⟨stubbed, stubs, kept, there, made⟩ := stubs_stand closed listed
  have standing : Standing manager changes (TypesApplied.mk stubbed ∅ 0).manager := by
    refine ⟨fun path apart => ?_, there, ?_⟩
    · exact kept path fun dt member _ => apart dt (listed dt member)
    · exact fun dt member => made dt (permuted.mem_iff.mpr member)
  obtain ⟨final, run, stands, _, turns⟩ := changes_stand law closed ready listed distinct standing
  refine ⟨final, ?_, stands, ?_⟩
  · rw [applyDataTypes, stubs]
    exact run
  · intro done dt later shape
    obtain ⟨before, ran, rest⟩ := turns done dt later shape
    refine ⟨before, ?_, rest⟩
    rw [atTurn, stubs, Option.bind_some, ran]

theorem settles_of_ready (law : ParsesNames lib builtIn refer) (closed : ClosedChanges lib builtIn manager changes)
    (ready : StandsReady lib manager changes) (alike : LaidOutAlike lib manager changes) :
    SettlesInAnyOrder lib manager changes := by
  obtain ⟨reference, ran, fixed, built⟩ := order_stands law closed ready (List.Perm.refl changes)
  refine ⟨reference, ran, fun order permuted => ?_⟩
  obtain ⟨applied, run, stands, turns⟩ := order_stands law closed ready permuted
  refine ⟨applied, run, ?_, ?_⟩
  · intro path
    by_cases listed : ∃ dt ∈ changes, path = (rootCategory, dt.name)
    · obtain ⟨dt, inside, rfl⟩ := listed
      obtain ⟨done, later, shape⟩ := List.append_of_mem inside
      obtain ⟨front, back, split⟩ := List.append_of_mem (permuted.mem_iff.mpr inside)
      obtain ⟨one, came, standing, first, held, blank, content⟩ := turns front dt back split
      obtain ⟨two, went, other, second, also, empty, same⟩ := built done dt later shape
      have met := alike dt inside _ _ ⟨order, front, back, one, permuted, split, came, rfl⟩
        ⟨changes, done, later, two, .refl _, shape, went, rfl⟩
      rw [(standing.rebuilds_iff law closed ready other inside).mpr met, same] at content
      rw [DataTypeManager.getDataType] at held also
      rw [held, also]
      simp [blank, empty, Option.some.inj content]
    · have apart : ∀ dt ∈ changes, path ≠ (rootCategory, dt.name) := fun dt inside same => listed ⟨dt, inside, same⟩
      rw [stands.kept path apart, fixed.kept path apart]
  · intro done dt later shape
    have inside : dt ∈ changes := permuted.mem_iff.mp (by simp [shape])
    obtain ⟨before, ran, standing, record, held, _, content⟩ := turns done dt later shape
    refine ⟨before, ran, ⟨record, held, content⟩, fun text named => ?_⟩
    exact standing.resolves law closed ready stands inside named

/-- A listed name without a type and without a stub is unknown when the first turn
comes. -/
theorem unresolved_at_first_turn (law : ParsesNames lib builtIn refer)
    (closed : ClosedChanges lib builtIn manager changes) (clear : Unambiguous builtIn manager changes)
    {order : List DataTypeChange} (listed : ∀ dt ∈ order, dt ∈ changes) {other : DataTypeChange}
    (inside : other ∈ changes) (missing : manager.getDataType other.name = none) (bare : ¬HasStub other)
    {stubbed : DataTypeManager}
    (stubs : (order.map CheckinJson.dataTypeEntry).foldlM (applyStub lib) manager = some stubbed)
    {name : SuffixedName} (named : String.ofList (name.normalized lib).base.text = other.name) :
    resolveDataType lib stubbed (String.ofList name.text) = some none := by
  obtain ⟨made, run, kept, _, _⟩ := stubs_stand closed listed
  rw [stubs, Option.some.injEq] at run
  subst run
  have same : ∀ path : String × String, path.2 = other.name → stubbed.lookup path = manager.lookup path := by
    intro path spelled
    refine kept path fun dt member stub clash => bare ?_
    have names : dt.name = other.name := by rw [← spelled, clash]
    rwa [← List.inj_on_of_nodup_map closed.distinct (listed dt member) inside names]
  have unknown : ¬Known builtIn stubbed (name.normalized lib).base.text := by
    have text : (name.normalized lib).base.text = other.name.toList := by
      rw [← named, String.toList_ofList]
    rw [text]
    rintro (builtin | ⟨category, found⟩)
    · exact clear.fresh other inside missing (.inl builtin)
    · rw [String.ofList_toList, same (category, other.name) rfl] at found
      exact clear.fresh other inside missing (.inr ⟨category, by rwa [String.ofList_toList]⟩)
  have direct : storedRef stubbed (String.ofList (name.normalized lib).text) = none := by
    rw [storedRef, Option.map_eq_none_iff]
    by_contra found
    -- a root type of that spelling has no suffix, so it would be the missing one
    have spelled : (name.normalized lib).text = (name.normalized lib).base.text := by
      by_cases clash : ∃ dt ∈ changes, dt.name = String.ofList (name.normalized lib).text
      · obtain ⟨dt, member, same⟩ := clash
        exact listed_unsuffixed closed member same
      · have held : stubbed.lookup (rootCategory, String.ofList (name.normalized lib).text) =
            manager.lookup (rootCategory, String.ofList (name.normalized lib).text) := by
          refine kept _ fun dt member _ path => clash ⟨dt, listed dt member, ?_⟩
          exact (Prod.mk.inj path).2.symm
        rw [DataTypeManager.getDataType, held] at found
        have plain := clear.plain _ (Option.isSome_iff_ne_none.mpr found)
        rcases spacedText_head name.suffixes with empty | ⟨first, rest, shape, opening⟩
        · rw [SuffixedName.text, SuffixedName.normalized, empty, List.append_nil]
        · rw [plain first (by simp [SuffixedName.text, SuffixedName.normalized, shape])] at opening
          cases opening
    rw [spelled, named, DataTypeManager.getDataType, same _ rfl] at found
    exact found missing
  rw [resolveDataType_suffixed law, direct, if_neg unknown]
  rfl

theorem ready_of_settles (law : ParsesNames lib builtIn refer) (closed : ClosedChanges lib builtIn manager changes)
    (clear : Unambiguous builtIn manager changes) (settles : SettlesInAnyOrder lib manager changes) :
    StandsReady lib manager changes := by
  obtain ⟨reference, _, orders⟩ := settles
  constructor
  · intro dt inside kind
    obtain ⟨applied, _, _, turns⟩ := orders changes (List.Perm.refl changes)
    obtain ⟨done, later, shape⟩ := List.append_of_mem inside
    obtain ⟨before, _, ⟨record, _, built⟩, _⟩ := turns done dt later shape
    rw [kind] at built
    exact (rebuild_enum_isSome dt).mp (by rw [show "enum" = TypeKind.text .enum from rfl, built]; rfl)
  · rintro dt inside other listed ⟨name, named, target⟩
    by_contra neither
    obtain ⟨absent, bare⟩ := not_or.mp neither
    have permuted := (List.perm_cons_erase inside).symm
    obtain ⟨applied, _, _, turns⟩ := orders _ permuted
    obtain ⟨before, first, _, names⟩ := turns [] dt (changes.erase dt) rfl
    obtain ⟨type, resolved, _⟩ := names _ named
    obtain ⟨stubbed, stubs, start⟩ := Option.bind_eq_some_iff.mp first
    cases start
    have members : ∀ entry ∈ dt :: changes.erase dt, entry ∈ changes := fun entry member => permuted.mem_iff.mp member
    have missing : manager.getDataType other.name = none := by simpa using absent
    rw [unresolved_at_first_turn law closed clear members listed missing bare stubs target] at resolved
    cases resolved

/-- Where the entries settle, all orders lay them out alike. -/
theorem laidOutAlike_of_settles (law : ParsesNames lib builtIn refer)
    (closed : ClosedChanges lib builtIn manager changes) (ready : StandsReady lib manager changes)
    (settles : SettlesInAnyOrder lib manager changes) : LaidOutAlike lib manager changes := by
  obtain ⟨reference, _, orders⟩ := settles
  -- what is built at a turn is what the reference has of the entry
  have built {dt : DataTypeChange} (inside : dt ∈ changes) {current : DataTypeManager}
      (met : MetAt lib manager changes dt current) : Standing manager changes current ∧
        rebuild lib current dt.kind.text (CheckinJson.dataTypeEntry dt) =
          (reference.manager.getDataType dt.name).map DataTypeRecord.content := by
    obtain ⟨order, done, later, before, permuted, shape, came, rfl⟩ := met
    obtain ⟨applied, run, same, turns⟩ := orders order permuted
    obtain ⟨there, went, ⟨record, held, content⟩, _⟩ := turns done dt later shape
    obtain ⟨_, _, _, stands⟩ := order_stands law closed ready permuted
    obtain ⟨again, once, standing, _⟩ := stands done dt later shape
    cases came.symm.trans went
    cases came.symm.trans once
    refine ⟨standing, ?_⟩
    have found := congrArg (Option.map Prod.snd) (same (rootCategory, dt.name))
    rw [DataTypeManager.getDataType] at held ⊢
    rw [held, Option.map_some, Option.map_some, Option.map_map] at found
    rw [content, found]
    rfl
  intro dt inside first second one two
  obtain ⟨left, made⟩ := built inside one
  obtain ⟨right, other⟩ := built inside two
  exact (left.rebuilds_iff law closed ready right inside).mp (made.trans other.symm)

end Passes

/-! ## Two lists -/

/-- A structure that points to another, which comes after it. -/
def listHead : List DataTypeChange := [
  { op := .add, kind := .struct, name := "List", size := 8, members := [⟨"head", 0, 8, "Node *"⟩] },
  { op := .add, kind := .struct, name := "Node", size := 4, members := [⟨"value", 0, 4, "int32_t"⟩] }]

/-- A typedef of another, which comes after it. -/
def typedefChain : List DataTypeChange := [
  { op := .add, kind := .typedef, name := "Handle", underlyingTypeName := "Word" },
  { op := .add, kind := .typedef, name := "Word", underlyingTypeName := "uint" }]

/-- One blank. -/
def blank : Gap := ⟨[' '], by decide⟩

theorem listHead_closed : ClosedChanges namedLibrary namedBuiltIn ∅ listHead := by
  refine ⟨by decide, ?_, ?_, by decide, ?_⟩
  · simp [listHead]
  · simp only [listHead, List.forall_mem_cons, List.not_mem_nil, false_implies, implies_true, and_true]
    exact ⟨⟨(identifier "List").base, rfl⟩, ⟨(identifier "Node").base, rfl⟩⟩
  · simp only [listHead, List.forall_mem_cons, List.not_mem_nil, false_implies, implies_true, and_true, references,
      List.map_cons, List.map_nil]
    refine ⟨⟨⟨(identifier "Node").base, [(blank, .star)]⟩, rfl, .inr ⟨_, .tail _ (.head _), by decide⟩⟩, ?_⟩
    exact ⟨identifier "int32_t", rfl, .inl (.inl (by rw [namedBuiltIn]; decide))⟩

theorem typedefChain_closed : ClosedChanges namedLibrary namedBuiltIn ∅ typedefChain := by
  refine ⟨by decide, ?_, ?_, by decide, ?_⟩
  · simp [typedefChain]
  · simp only [typedefChain, List.forall_mem_cons, List.not_mem_nil, false_implies, implies_true, and_true]
    exact ⟨⟨(identifier "Handle").base, rfl⟩, ⟨(identifier "Word").base, rfl⟩⟩
  · simp only [typedefChain, List.forall_mem_cons, List.not_mem_nil, false_implies, implies_true, and_true, references]
    refine ⟨⟨identifier "Word", rfl, .inr ⟨_, .tail _ (.head _), by decide⟩⟩, ?_⟩
    exact ⟨identifier "uint", rfl, .inl (.inl (by rw [namedBuiltIn]; decide))⟩

end GhidraBridge.TypeOrder
