import GhidraBridge.TypeOrder

/-! Which record a type change reaches. The id of a type travels from the export
through the baseline into the request; the server finds the type by its name in
the root category and does not read the id. -/
namespace GhidraBridge.TypeIdentity
open Lib Lib.Fold CheckinState ProgramApplier BaselineMoves DataTypeEntries TypeAnnotations SyncEngine

/-- The types of a program: one id to a record, in whatever category, and a name to
each. -/
structure TypeTable where
  manager : DataTypeManager
  ids : ∀ {path other : String × String} {record held : DataTypeRecord}, manager.lookup path = some record →
    manager.lookup other = some held → record.id = held.id → path = other
  named : ∀ category, manager.lookup (category, "") = none

/-- Every exported type is a record of the program, under its name and with its id.
Two of them may share a name. -/
def ExportedFrom (data : GhidraDbExport) (table : TypeTable) : Prop :=
  ∀ dt ∈ data.dataTypes, ∃ category record, table.manager.lookup (category, dt.name) = some record ∧ record.id = dt.id

/-- What the entry makes of the record it means. -/
def changedRecord (lib : TypeLibrary) (manager : DataTypeManager) (dt : DataTypeChange) (record : DataTypeRecord) :
    Option DataTypeRecord :=
  if dt.op = .delete then none
  else (rebuild lib manager dt.kind.text (CheckinJson.dataTypeEntry dt)).map fun content =>
    { record with description := "", content }

/-- The entry changes the record of its id, no other one, and counts only if there is
one. -/
structure ChangesById (lib : TypeLibrary) (manager : DataTypeManager) (dt : DataTypeChange) (applied : TypesApplied) :
    Prop where
  own : ∀ path record, manager.lookup path = some record → record.id = dt.ghidraId →
    applied.manager.lookup path = changedRecord lib manager dt record
  others : ∀ path, (∀ record, manager.lookup path = some record → record.id ≠ dt.ghidraId) →
    applied.manager.lookup path = manager.lookup path
  counted : applied.count ≠ 0 → ∃ path record, manager.lookup path = some record ∧ record.id = dt.ghidraId

/-- The baseline holds exported types. -/
theorem baseline_exported {data : GhidraDbExport} {view : BinaryView} {repo folder item name : String}
    {base : GhidraDataType}
    (found : (store (applyToView view data).2 repo folder item).ghidraTypesByName.lookup name = some base) :
    base ∈ data.dataTypes ∧ base.name = name := by
  change (Table.writeAll ∅ GhidraDataType.name id data.dataTypes).lookup name = some base at found
  rw [Table.lookup_writeAll] at found
  simp only [AList.lookup_empty, Option.or_none, Option.map_id, id_eq] at found
  exact ⟨List.mem_reverse.mp (List.mem_of_find?_eq_some found), by simpa using List.find?_some found⟩

/-- An update or a deletion carries the id of the baseline's type of its name. -/
theorem carried_id {state : CheckinState} {view : BinaryView} {dt : DataTypeChange}
    (queued : dt ∈ (collectCheckinChanges state view).dataTypeChanges) (known : dt.op ≠ .add) :
    ∃ base, state.ghidraTypesByName.lookup dt.name = some base ∧ dt.ghidraId = base.id := by
  rw [collectCheckinChanges] at queued
  split at queued
  · cases queued
  · rcases mem_collectDataTypes queued with ⟨registered, _, made⟩ | ⟨_, _, base, found, shape⟩
    · unfold typeChange at made
      split at made
      · cases made
      · split at made
        · cases made
        · obtain ⟨change, _, chosen⟩ := Option.bind_eq_some_iff.mp made
          cases found : state.ghidraTypesByName.lookup dt.name with
          | none =>
            rw [found] at chosen
            cases chosen
            exact absurd rfl known
          | some base =>
            rw [found] at chosen
            dsimp only at chosen
            split at chosen
            · refine ⟨base, rfl, ?_⟩
              rw [← Option.some.inj chosen]
            · cases chosen
    · exact ⟨base, found, by rw [shape]⟩

section
variable {lib : TypeLibrary} {manager : DataTypeManager} {dt : DataTypeChange}

/-- An entry alone: its stub, then its turn. -/
theorem alone (lib : TypeLibrary) (manager : DataTypeManager) (dt : DataTypeChange) :
    ∃ stubbed applied, applyStub lib manager (CheckinJson.dataTypeEntry dt) = some stubbed ∧
      (∀ path record, manager.lookup path = some record → stubbed.lookup path = some record) ∧
      applyDataTypes lib manager [CheckinJson.dataTypeEntry dt] = some applied ∧
      Turn lib stubbed dt applied.manager := by
  obtain ⟨stubbed, stub, kept⟩ := @applyStub_entry lib manager dt
  obtain ⟨applied, stepped, turn⟩ := @applyTypeChange_turn lib { manager := stubbed } dt
  refine ⟨stubbed, applied, stub, kept, ?_, turn⟩
  rw [applyDataTypes]
  simp [stub, stepped]

/-- Where the root category has the name, no stub is made. -/
theorem stub_of_present {record : DataTypeRecord} (named : dt.name ≠ "")
    (held : manager.getDataType dt.name = some record) :
    applyStub lib manager (CheckinJson.dataTypeEntry dt) = some manager := by
  by_cases deletes : dt.op = .delete
  · rw [applyStub, if_neg (by simp [CheckinJson.dataTypeEntry, Json.isObject]), op_read, kind_read, name_read]
    simp only [Option.bind_eq_bind, Option.bind_some]
    rw [if_pos (.inr (text_eq_delete.mpr deletes))]
    rfl
  · rw [TypeOrder.applyStub_eq manager named deletes, held]

end

/-- An update or a deletion of an exported type changes the record of its id, and that
record alone, exactly when it is the one of its name in the root category, and the
new type of an update can be built. -/
theorem type_identity_iff (lib : TypeLibrary) (table : TypeTable) {data : GhidraDbExport}
    (exported : ExportedFrom data table) {view edited : BinaryView} {repo folder item : String} {dt : DataTypeChange}
    (queued : dt ∈ (collectCheckinChanges (store (applyToView view data).2 repo folder item) edited).dataTypeChanges)
    (known : dt.op ≠ .add)
    (edits : dt.op = .update → ∀ path record, table.manager.lookup path = some record → record.id = dt.ghidraId →
      rebuild lib table.manager dt.kind.text (CheckinJson.dataTypeEntry dt) ≠ some record.content) :
    ∃ applied, applyDataTypes lib table.manager [CheckinJson.dataTypeEntry dt] = some applied ∧
      (ChangesById lib table.manager dt applied ↔
        ∃ record, table.manager.getDataType dt.name = some record ∧ record.id = dt.ghidraId ∧
          (dt.op = .update → (rebuild lib table.manager dt.kind.text (CheckinJson.dataTypeEntry dt)).isSome)) := by
  obtain ⟨base, found, carried⟩ := carried_id queued known
  obtain ⟨member, same⟩ := baseline_exported found
  obtain ⟨category, record, held, own⟩ := exported base member
  rw [same] at held
  rw [← carried] at own
  have named : dt.name ≠ "" := by
    intro empty
    rw [empty, table.named category] at held
    cases held
  have updates (keeps : dt.op ≠ .delete) : dt.op = .update := by
    cases op : dt.op with
    | add => exact absurd op known
    | update => rfl
    | delete => exact absurd op keeps
  obtain ⟨stubbed, applied, stub, kept, run, turn⟩ := alone lib table.manager dt
  refine ⟨applied, run, ?_⟩
  constructor
  · intro changes
    have target := changes.own _ record held own
    by_cases rooted : category = rootCategory
    · subst rooted
      refine ⟨record, held, own, fun update => ?_⟩
      -- an update leaves a record of the name, so something was built
      have keeps : dt.op ≠ .delete := by simp [update]
      rw [changedRecord, if_neg keeps] at target
      have present : (applied.manager.lookup (rootCategory, dt.name)).isSome := by
        generalize applied.manager = after at turn
        cases turn with
        | skipped unnamed => exact absurd unnamed named
        | deleted _ deletes => exact absurd deletes keeps
        | refused => rw [kept _ record held]; rfl
        | replaced => rw [DataTypeManager.addDataType, Table.lookup_set, if_pos rfl]; rfl
      rw [target, Option.isSome_map] at present
      exact present
    · have untouched : applied.manager.lookup (category, dt.name) = some record := by
        rw [turn.lookup_other fun path => rooted (Prod.mk.inj path).1]
        exact kept _ record held
      rw [untouched, changedRecord] at target
      split at target
      · cases target
      · rename_i keeps
        obtain ⟨content, built, rebuilt⟩ := Option.map_eq_some_iff.mp target.symm
        refine absurd ?_ (edits (updates keeps) _ record held own)
        rw [built, ← rebuilt]
  · rintro ⟨root, there, matched, built⟩
    rw [stub_of_present named there, Option.some.injEq] at stub
    subst stub
    have only {path : String × String} {other : DataTypeRecord} (stored : table.manager.lookup path = some other)
        (mine : other.id = dt.ghidraId) : path = (rootCategory, dt.name) :=
      table.ids stored there (mine.trans matched.symm)
    have apart {path : String × String} (foreign : ∀ record, table.manager.lookup path = some record →
        record.id ≠ dt.ghidraId) : path ≠ (rootCategory, dt.name) := by
      rintro rfl
      exact foreign root there matched
    refine ⟨?_, fun path foreign => turn.lookup_other (apart foreign), fun _ => ⟨_, root, there, matched⟩⟩
    intro path other stored mine
    have place := only stored mine
    subst place
    rw [show table.manager.lookup (rootCategory, dt.name) = some root from there, Option.some.injEq] at stored
    subst stored
    generalize applied.manager = after at turn
    cases turn with
    | skipped unnamed => exact absurd unnamed named
    | deleted _ deletes => rw [Table.lookup_erase_eq, if_pos rfl, changedRecord, if_pos deletes]
    | refused _ keeps none =>
      have some := built (updates keeps)
      rw [none] at some
      cases some
    | replaced _ keeps made =>
      rw [DataTypeManager.addDataType, Table.lookup_set, if_pos rfl, changedRecord, if_neg keeps, made, there]
      rfl

/-! ## One structure in two places -/

/-- The program whose only type is the structure of the export. -/
def packetTable (category : String) : TypeTable where
  manager := Table.set ∅ (category, "Packet") packet
  ids {path other _ _} first second _ := by
    rw [Table.lookup_set] at first second
    by_cases here : path = (category, "Packet")
    · by_cases there : other = (category, "Packet")
      · rw [here, there]
      · rw [if_neg there] at second
        cases second
    · rw [if_neg here] at first
      cases first
  named place := by
    rw [Table.lookup_set, if_neg (by simp)]
    rfl

theorem packet_exported (category : String) : ExportedFrom packetExport (packetTable category) := by
  intro dt member
  rw [packetExport, List.mem_singleton] at member
  subst member
  refine ⟨category, packet, ?_, rfl⟩
  rw [packetTable, Table.lookup_set, if_pos rfl]

/-- What a check-in sends of it after its second member was renamed. -/
def packetUpdate : DataTypeChange where
  op := .update
  kind := .struct
  name := "Packet"
  ghidraId := 1
  size := 8
  members := [⟨"len", 0, 4, "int32_t"⟩, ⟨"checksum", 4, 4, "int32_t"⟩]

theorem packetUpdate_queued : packetUpdate ∈ (collectCheckinChanges packetState packetEdited).dataTypeChanges := by
  decide +kernel

theorem update_reaches_root_packet :
    ∃ applied, applyDataTypes plainLibrary (packetTable rootCategory).manager
        [CheckinJson.dataTypeEntry packetUpdate] = some applied ∧
      ChangesById plainLibrary (packetTable rootCategory).manager packetUpdate applied := by
  have built : rebuild plainLibrary (packetTable rootCategory).manager packetUpdate.kind.text
      (CheckinJson.dataTypeEntry packetUpdate) = some (.composite false {
        length := 8
        components := [⟨some "len", 0, 4, .parsed "int", none⟩, ⟨some "checksum", 4, 4, .parsed "int", none⟩] }) := by
    decide +kernel
  obtain ⟨applied, run, changes⟩ := type_identity_iff plainLibrary (packetTable rootCategory)
    (packet_exported rootCategory) packetUpdate_queued (by decide) (by
      intro _ path record held _
      rw [packetTable, Table.lookup_set] at held
      split at held
      · cases held
        rw [built]
        decide
      · cases held)
  exact ⟨applied, run, changes.mpr ⟨packet, by decide +kernel, rfl, fun _ => by rw [built]; rfl⟩⟩

/-- In a sub-category the record is left as it was, and the update makes a second type
of its name in the root category and counts. -/
theorem update_misses_subcategory :
    ExportedFrom packetExport (packetTable "/net") ∧
    packetUpdate ∈ (collectCheckinChanges packetState packetEdited).dataTypeChanges ∧
    ∃ applied, applyDataTypes plainLibrary (packetTable "/net").manager
        [CheckinJson.dataTypeEntry packetUpdate] = some applied ∧
      applied.count = 1 ∧ applied.manager.lookup ("/net", "Packet") = some packet ∧
      (applied.manager.getDataType "Packet").isSome ∧
      ¬ChangesById plainLibrary (packetTable "/net").manager packetUpdate applied := by
  have run : (applyDataTypes plainLibrary (packetTable "/net").manager
      [CheckinJson.dataTypeEntry packetUpdate]).map (fun applied => (applied.count,
        applied.manager.lookup ("/net", "Packet"), (applied.manager.getDataType "Packet").isSome)) =
      some (1, some packet, true) := by
    decide +kernel
  obtain ⟨applied, ran, seen⟩ := Option.map_eq_some_iff.mp run
  simp only [Prod.mk.injEq] at seen
  obtain ⟨count, kept, doubled⟩ := seen
  refine ⟨packet_exported "/net", packetUpdate_queued, applied, ran, count, kept, doubled, fun changes => ?_⟩
  have others := changes.others (rootCategory, "Packet") (by
    intro record held
    rw [packetTable, Table.lookup_set, if_neg (by decide)] at held
    cases held)
  rw [DataTypeManager.getDataType, others, packetTable, Table.lookup_set, if_neg (by decide)] at doubled
  cases doubled

end GhidraBridge.TypeIdentity
