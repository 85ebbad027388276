import GhidraBridge.BaselineMoves
import GhidraBridge.DataTypeApplier
import GhidraBridge.Lib.Fold

/-! The data type entries a check-in sends, as the server reads them: what each member
and value is placed with, which entries can be built, and what an entry does to the
types when its turn comes. -/
namespace GhidraBridge.DataTypeEntries
open Lib Lib.Fold CheckinState ProgramApplier

/-! ## Reading an entry -/

section Read
variable {lib : TypeLibrary} {manager : DataTypeManager}

/-- The length a member is placed with. -/
def placedLength (lib : TypeLibrary) (manager : DataTypeManager) (m : ChangedMember) (type : DataTypeRef) : Int32 :=
  if 0 < m.size then m.size else lib.getLength manager type

/-- An entry of a member has no comment to read. -/
theorem placeMember_entry (s : Layout) (m : ChangedMember) :
    placeMember lib manager s (CheckinJson.memberEntry m) =
      (memberDataType lib manager m.typeName m.size).map fun type =>
        (if 0 ≤ m.offset then
            lib.insertAtOffset s m.offset type (placedLength lib manager m type) (nullIfEmpty m.name) none
          else lib.add s type (placedLength lib manager m type) (nullIfEmpty m.name) none).getD s := by
  have size : intOr (CheckinJson.memberEntry m) "size" 0 = some m.size := Json.getAsInt_toInt m.size
  have offset : intOr (CheckinJson.memberEntry m) "offset" (-1) = some m.offset := Json.getAsInt_toInt m.offset
  rw [placeMember, if_neg (by simp [CheckinJson.memberEntry, Json.isObject]),
    show Json.getStr (CheckinJson.memberEntry m) "name" "" = some m.name from rfl,
    show Json.getStr (CheckinJson.memberEntry m) "type_name" "" = some m.typeName from rfl,
    show Json.getStr (CheckinJson.memberEntry m) "comment" "" = some "" from rfl, size, offset]
  simp only [Option.bind_eq_bind, Option.bind_some]
  cases memberDataType lib manager m.typeName m.size with
  | none => rfl
  | some type => rfl

theorem addUnionMember_entry (u : Layout) (m : ChangedMember) :
    addUnionMember lib manager u (CheckinJson.memberEntry m) =
      (memberDataType lib manager m.typeName m.size).map fun type =>
        (lib.addToUnion u type (placedLength lib manager m type) (nullIfEmpty m.name) none).getD u := by
  have size : intOr (CheckinJson.memberEntry m) "size" 0 = some m.size := Json.getAsInt_toInt m.size
  rw [addUnionMember, if_neg (by simp [CheckinJson.memberEntry, Json.isObject]),
    show Json.getStr (CheckinJson.memberEntry m) "name" "" = some m.name from rfl,
    show Json.getStr (CheckinJson.memberEntry m) "type_name" "" = some m.typeName from rfl,
    show Json.getStr (CheckinJson.memberEntry m) "comment" "" = some "" from rfl, size]
  simp only [Option.bind_eq_bind, Option.bind_some]
  cases memberDataType lib manager m.typeName m.size with
  | none => rfl
  | some type => rfl

theorem addValue_entry (length : Int32) (entries : List EnumEntry) (v : ChangedValue) :
    addValue lib length entries (CheckinJson.valueEntry v) =
      some (if v.name = "" then entries else (lib.addEntry length entries v.name v.value none).getD entries) := by
  have value : (int64Json v.value).getAsLong = some v.value := Json.getAsLong_toInt v.value
  rw [addValue, if_neg (by simp [CheckinJson.valueEntry, Json.isObject]),
    show Json.get? (CheckinJson.valueEntry v) "value" = some (int64Json v.value) from rfl]
  dsimp only
  rw [value]
  by_cases unnamed : v.name = ""
  · rw [if_pos unnamed]
    exact if_pos unnamed
  · rw [if_neg unnamed]
    exact if_neg unnamed

/-- A list an entry leaves out when it is empty reads back. -/
theorem arrayOr_optional {front back : List (String × Json)} {key : String} (entry : A → Json) (items : List A)
    [Decidable (items = [])] (ahead : front.lookup key = none) (behind : back.lookup key = none) :
    arrayOr (.obj (front ++ (if items = [] then [] else [(key, .arr (items.map entry))]) ++ back)) key =
      some (items.map entry) := by
  rw [arrayOr, Json.get?, List.lookup_append, List.lookup_append, ahead, behind]
  by_cases empty : items = []
  · simp [empty]
  · simp [empty]

private theorem lookup_optional {absent : Prop} [Decidable absent] {key other : String} {value : Json}
    (apart : key ≠ other) : List.lookup key (if absent then [] else [(other, value)]) = none := by
  split
  · rfl
  · simp [List.lookup_cons, beq_false_of_ne apart]

theorem members_read (dt : DataTypeChange) :
    arrayOr (CheckinJson.dataTypeEntry dt) "members" = some (dt.members.map CheckinJson.memberEntry) := by
  rw [CheckinJson.dataTypeEntry, List.append_assoc]
  refine arrayOr_optional CheckinJson.memberEntry dt.members rfl ?_
  rw [List.lookup_append, lookup_optional (by decide)]
  exact lookup_optional (by decide)

theorem values_read (dt : DataTypeChange) :
    arrayOr (CheckinJson.dataTypeEntry dt) "values" = some (dt.values.map CheckinJson.valueEntry) := by
  rw [CheckinJson.dataTypeEntry]
  refine arrayOr_optional CheckinJson.valueEntry dt.values ?_ (lookup_optional (by decide))
  rw [List.lookup_append, lookup_optional (by decide)]
  rfl

theorem op_read (dt : DataTypeChange) :
    Json.getStr (CheckinJson.dataTypeEntry dt) "op" "add" = some dt.op.text := rfl

theorem kind_read (dt : DataTypeChange) :
    Json.getStr (CheckinJson.dataTypeEntry dt) "kind" "" = some dt.kind.text := rfl

theorem name_read (dt : DataTypeChange) :
    Json.getStr (CheckinJson.dataTypeEntry dt) "name" "" = some dt.name := rfl

theorem size_read (dt : DataTypeChange) (dflt : Int32) :
    intOr (CheckinJson.dataTypeEntry dt) "size" dflt = some dt.size := Json.getAsInt_toInt dt.size

theorem underlying_read (dt : DataTypeChange) :
    Json.getStr (CheckinJson.dataTypeEntry dt) "underlying_type_name" "" = some dt.underlyingTypeName := by
  rw [Json.getStr, CheckinJson.dataTypeEntry, Json.get?, List.lookup_append, List.lookup_append,
    List.lookup_append, lookup_optional (by decide), lookup_optional (by decide), optionalText]
  by_cases empty : dt.underlyingTypeName = ""
  · rw [if_pos empty, empty]
    rfl
  · rw [if_neg empty]
    rfl

end Read

/-! ## Which entries can be built -/

section Build
variable {lib : TypeLibrary} {manager : DataTypeManager}

theorem memberDataType_isSome {typeName : String} {size : Int32} :
    (memberDataType lib manager typeName size).isSome ↔ (resolveDataType lib manager typeName).isSome := by
  rw [memberDataType, Option.isSome_map]

/-- When the type of an entry can be built: a member of a type name that throws, an
enum of more than eight bytes and a typedef of an unknown name cannot. -/
def Buildable (lib : TypeLibrary) (manager : DataTypeManager) (view : BinaryView) : TypeDefinition → Prop
  | .composite _ _ members => ∀ m ∈ members, (resolveDataType lib manager (view.getString m.type)).isSome
  | .enumeration width _ => Int32.ofNat width ≤ 8
  | .typedef target _ => ∃ found, resolveDataType lib manager target = some (some found)
  | .other _ => False

private theorem isSome_bind_pure {S T : Type} (found : Option S) (f : S → T) :
    (found.bind fun s => pure (f s)).isSome = found.isSome := by
  cases found <;> rfl

theorem members_isSome {step : Layout → Json → Option Layout}
    (each : ∀ s m, (step s (CheckinJson.memberEntry m)).isSome ↔
      (memberDataType lib manager m.typeName m.size).isSome) (members : List ChangedMember) :
    ((members.map CheckinJson.memberEntry).foldlM step {}).isSome ↔
      ∀ m ∈ members, (resolveDataType lib manager m.typeName).isSome := by
  rw [List.foldlM_map]
  exact foldlM_isSome_iff (fun s m => (each s m).trans memberDataType_isSome) members {}

theorem rebuild_struct_isSome (dt : DataTypeChange) :
    (rebuild lib manager "struct" (CheckinJson.dataTypeEntry dt)).isSome ↔
      ∀ m ∈ dt.members, (resolveDataType lib manager m.typeName).isSome := by
  have each (s : Layout) (m : ChangedMember) : (placeMember lib manager s (CheckinJson.memberEntry m)).isSome ↔
      (memberDataType lib manager m.typeName m.size).isSome := by
    rw [placeMember_entry, Option.isSome_map]
  rw [rebuild, if_pos rfl, size_read, members_read]
  simp only [Option.bind_eq_bind, Option.bind_some]
  rw [isSome_bind_pure, members_isSome each]

theorem rebuild_union_isSome (dt : DataTypeChange) :
    (rebuild lib manager "union" (CheckinJson.dataTypeEntry dt)).isSome ↔
      ∀ m ∈ dt.members, (resolveDataType lib manager m.typeName).isSome := by
  have each (u : Layout) (m : ChangedMember) : (addUnionMember lib manager u (CheckinJson.memberEntry m)).isSome ↔
      (memberDataType lib manager m.typeName m.size).isSome := by
    rw [addUnionMember_entry, Option.isSome_map]
  rw [rebuild, if_neg (by decide), if_pos rfl, members_read]
  simp only [Option.bind_eq_bind, Option.bind_some]
  rw [isSome_bind_pure, members_isSome each]

theorem enumLength_isSome (size : Int32) : (enumLength size).isSome ↔ size ≤ 8 := by
  rw [enumLength]
  by_cases positive : 0 < size
  · by_cases small : size ≤ 8
    · simp [positive, small]
    · simp [positive, small]
  · have small : size ≤ 8 := by
      rw [Int32.le_iff_toInt_le]
      rw [Int32.lt_iff_toInt_lt, Int.not_lt] at positive
      exact positive.trans (by decide)
    simp [positive, small]

theorem rebuild_enum_isSome (dt : DataTypeChange) :
    (rebuild lib manager "enum" (CheckinJson.dataTypeEntry dt)).isSome ↔ dt.size ≤ 8 := by
  rw [← enumLength_isSome, rebuild, if_neg (by decide), if_neg (by decide), if_pos rfl, size_read, values_read]
  simp only [Option.bind_eq_bind, Option.bind_some]
  cases enumLength dt.size with
  | none => rfl
  | some length =>
    have each (entries : List EnumEntry) (v : ChangedValue) :
        (addValue lib length entries (CheckinJson.valueEntry v)).isSome ↔ True := by
      rw [addValue_entry]
      simp
    rw [Option.bind_some, isSome_bind_pure, List.foldlM_map, foldlM_isSome_iff each]
    simp

theorem rebuild_typedef_isSome (dt : DataTypeChange) :
    (rebuild lib manager "typedef" (CheckinJson.dataTypeEntry dt)).isSome ↔
      ∃ found, resolveDataType lib manager dt.underlyingTypeName = some (some found) := by
  rw [rebuild, if_neg (by decide), if_neg (by decide), if_neg (by decide), if_pos rfl, underlying_read]
  simp only [Option.bind_eq_bind, Option.bind_some]
  cases resolveDataType lib manager dt.underlyingTypeName with
  | none => simp
  | some found =>
    cases found with
    | none => simp
    | some target => simp

/-- An edit of a registered type can be built exactly if its definition can. -/
theorem rebuild_isSome_iff {view : BinaryView} {name : String} {definition : TypeDefinition}
    {dt change : DataTypeChange}
    (described : describeType view name definition = some change)
    (filled : dt = { change with op := dt.op, ghidraId := dt.ghidraId }) :
    (rebuild lib manager dt.kind.text (CheckinJson.dataTypeEntry dt)).isSome ↔
      Buildable lib manager view definition := by
  cases definition with
  | composite isUnion width members =>
    rw [describeType] at described
    split at described
    · cases described
    · cases described
      cases isUnion with
      | false =>
        rw [filled]
        refine (rebuild_struct_isSome _).trans ?_
        simp [Buildable, changedMember]
      | true =>
        rw [filled]
        refine (rebuild_union_isSome _).trans ?_
        simp [Buildable, changedMember]
  | enumeration width members =>
    rw [describeType] at described
    split at described
    · cases described
    · cases described
      rw [filled]
      exact rebuild_enum_isSome _
  | typedef target width =>
    rw [describeType] at described
    split at described
    · cases described
    · cases described
      rw [filled]
      exact rebuild_typedef_isSome _
  | other type => cases described

end Build

/-! ## Turns -/

section Turns
variable {lib : TypeLibrary}

theorem text_eq_delete {op : ChangeOp} : op.text = "delete" ↔ op = .delete := by
  cases op <;> simp [ChangeOp.text]

/-- What an entry does to the types when its turn comes. -/
inductive Turn (lib : TypeLibrary) (before : DataTypeManager) (dt : DataTypeChange) : DataTypeManager → Prop where
  | skipped (unnamed : dt.name = "") : Turn lib before dt before
  | deleted (named : dt.name ≠ "") (deletes : dt.op = .delete) :
      Turn lib before dt (before.erase (rootCategory, dt.name))
  | refused (named : dt.name ≠ "") (edits : dt.op ≠ .delete)
      (built : rebuild lib before dt.kind.text (CheckinJson.dataTypeEntry dt) = none) : Turn lib before dt before
  | replaced (named : dt.name ≠ "") (edits : dt.op ≠ .delete) {content : TypeContent}
      (built : rebuild lib before dt.kind.text (CheckinJson.dataTypeEntry dt) = some content) :
      Turn lib before dt (before.addDataType lib dt.name content).1

theorem applyTypeChange_turn (applied : TypesApplied) (dt : DataTypeChange) :
    ∃ next, applyTypeChange lib applied (CheckinJson.dataTypeEntry dt) = some next ∧
      Turn lib applied.manager dt next.manager := by
  rw [applyTypeChange, if_neg (by simp [CheckinJson.dataTypeEntry, Json.isObject]),
    op_read, kind_read, name_read]
  simp only [Option.bind_eq_bind, Option.bind_some]
  by_cases unnamed : dt.name = ""
  · rw [if_pos unnamed]
    exact ⟨applied, rfl, .skipped unnamed⟩
  · rw [if_neg unnamed]
    by_cases deletes : dt.op = .delete
    · rw [if_pos (text_eq_delete.mpr deletes)]
      exact ⟨_, rfl, .deleted unnamed deletes⟩
    · rw [if_neg (mt text_eq_delete.mp deletes)]
      cases built : rebuild lib applied.manager dt.kind.text (CheckinJson.dataTypeEntry dt) with
      | none => exact ⟨applied, rfl, .refused unnamed deletes built⟩
      | some content => exact ⟨_, rfl, .replaced unnamed deletes built⟩

theorem applyStub_entry (manager : DataTypeManager) (dt : DataTypeChange) :
    ∃ next, applyStub lib manager (CheckinJson.dataTypeEntry dt) = some next ∧
      ∀ path record, manager.lookup path = some record → next.lookup path = some record := by
  rw [applyStub, if_neg (by simp [CheckinJson.dataTypeEntry, Json.isObject]),
    op_read, kind_read, name_read]
  simp only [Option.bind_eq_bind, Option.bind_some]
  split
  · exact ⟨manager, rfl, fun _ _ held => held⟩
  · cases missing : manager.getDataType dt.name with
    | some found => exact ⟨manager, rfl, fun _ _ held => held⟩
    | none =>
      cases stubContent dt.kind.text (CheckinJson.dataTypeEntry dt) with
      | none => exact ⟨manager, rfl, fun _ _ held => held⟩
      | some content =>
        refine ⟨_, rfl, fun path record held => ?_⟩
        have other : path ≠ (rootCategory, dt.name) := by
          rintro rfl
          rw [DataTypeManager.getDataType, held] at missing
          cases missing
        rw [DataTypeManager.addDataType, Table.lookup_set, if_neg other]
        exact held

/-- The first pass gets through, and every type there is stays as it is. -/
theorem stubs_run (changes : List DataTypeChange) (manager : DataTypeManager) :
    ∃ stubbed, (changes.map CheckinJson.dataTypeEntry).foldlM (applyStub lib) manager = some stubbed ∧
      ∀ path record, manager.lookup path = some record → stubbed.lookup path = some record := by
  refine foldlM_gets_through (P := fun current : DataTypeManager => ∀ path record,
    manager.lookup path = some record → current.lookup path = some record) ?_ changes fun _ _ held => held
  intro current dt kept
  obtain ⟨next, stepped, stays⟩ := applyStub_entry current dt
  exact ⟨next, stepped, fun path record held => stays path record (kept path record held)⟩

/-- The second pass gets through. -/
theorem changes_run (changes : List DataTypeChange) (start : TypesApplied) :
    ∃ final, (changes.map CheckinJson.dataTypeEntry).foldlM (applyTypeChange lib) start = some final := by
  have each (applied : TypesApplied) (dt : DataTypeChange) (_ : True) :
      ∃ next, applyTypeChange lib applied (CheckinJson.dataTypeEntry dt) = some next ∧ True := by
    obtain ⟨next, stepped, _⟩ := @applyTypeChange_turn lib applied dt
    exact ⟨next, stepped, trivial⟩
  obtain ⟨final, run, _⟩ := foldlM_gets_through each changes (trivial : True)
  exact ⟨final, run⟩

theorem Turn.lookup_other {before after : DataTypeManager} {dt : DataTypeChange} {path : String × String}
    (turn : Turn lib before dt after) (other : path ≠ (rootCategory, dt.name)) :
    after.lookup path = before.lookup path := by
  cases turn with
  | skipped | refused => rfl
  | deleted => rw [Table.lookup_erase_eq, if_neg other]
  | replaced => rw [DataTypeManager.addDataType, Table.lookup_set, if_neg other]

end Turns

end GhidraBridge.DataTypeEntries
