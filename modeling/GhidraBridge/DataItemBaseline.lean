import GhidraBridge.ImportEffects

/-! Data items across an import and an untouched check-in. The import defines a
variable only for an item whose type arrives in the view, while the baseline
records the address of every item; an item whose type does not arrive is
therefore collected as a deletion although nobody touched it. -/
namespace GhidraBridge.DataItemBaseline
open Lib SyncEngine CheckinState

/-- The name belongs to a type of the view, of an equate or of a registered data type. -/
def NameArrives (view : BinaryView) (data : GhidraDbExport) (name : String) : Prop :=
  (∃ dt ∈ data.dataTypes, Registers dt ∧ dt.name = name) ∨
    (∃ eq ∈ data.equates, EquateRegisters eq ∧ eq.name = name) ∨ name ∈ view.types

/-- The first named data type with this id is one whose name arrives. -/
def TypeArrives (view : BinaryView) (data : GhidraDbExport) (typeId : Int64) : Prop :=
  ∃ dt, data.dataTypes.find? (fun dt => dt.id = typeId && dt.name ≠ "") = some dt ∧
    NameArrives view data dt.name

/-- The item's address holds a variable somebody defined before the import, or
some item at that address has a type that arrives. -/
def ItemKept (view : BinaryView) (data : GhidraDbExport) (item : GhidraDataItem) : Prop :=
  stillPresent view (item.addr + rebaseOf view data) = true ∨
    ∃ other ∈ data.dataItems, other.addr = item.addr ∧ TypeArrives view data other.typeId

private theorem mem_rememberType {view : BinaryView} {known : Table String BNType}
    {dt : GhidraDataType} {name : String} :
    name ∈ rememberType view known dt ↔
      (dt.name = name ∧ name ≠ "" ∧ name ∈ view.types) ∨ name ∈ known := by
  unfold rememberType
  split
  · rename_i unnamed
    have other : ¬(dt.name = name ∧ name ≠ "" ∧ name ∈ view.types) :=
      fun ⟨same, named, _⟩ => named (same ▸ unnamed)
    simp [other]
  · rename_i named
    unfold BinaryView.getTypeByName
    cases found : view.types.lookup dt.name with
    | none =>
      have absent : dt.name ∉ view.types := AList.lookup_eq_none.mp found
      have other : ¬(dt.name = name ∧ name ≠ "" ∧ name ∈ view.types) :=
        fun ⟨same, _, held⟩ => absent (same ▸ held)
      simp [other]
    | some registered =>
      have held : dt.name ∈ view.types := AList.lookup_isSome.mp (by simp [found])
      simp only [Option.map_some, Table.mem_set]
      constructor
      · rintro (same | before)
        · subst same
          exact .inl ⟨rfl, named, held⟩
        · exact .inr before
      · rintro (⟨same, _, _⟩ | before)
        · exact .inl same.symm
        · exact .inr before

private theorem mem_foldl_rememberType {view : BinaryView} {known : Table String BNType}
    {dataTypes : List GhidraDataType} {name : String} :
    name ∈ dataTypes.foldl (rememberType view) known ↔
      ((∃ dt ∈ dataTypes, dt.name = name) ∧ name ≠ "" ∧ name ∈ view.types) ∨ name ∈ known := by
  induction dataTypes generalizing known with
  | nil => simp
  | cons dt rest ih =>
    rw [List.foldl_cons, ih, mem_rememberType]
    simp only [List.mem_cons, exists_eq_or_imp]
    rw [or_and_right]
    exact or_left_comm.trans or_assoc.symm

theorem mem_typesByName {view : BinaryView} {dataTypes : List GhidraDataType} {name : String} :
    name ∈ typesByName view dataTypes ↔
      (∃ dt ∈ dataTypes, dt.name = name) ∧ name ≠ "" ∧ name ∈ view.types := by
  rw [typesByName, mem_foldl_rememberType]
  simp

section Import
variable (view : BinaryView) (data : GhidraDbExport)

private theorem name_arrives_iff {name : String} :
    name ∈ (afterTypes view data).types ↔ NameArrives view data name := by
  rw [afterTypes, mem_types_dataTypes, mem_types_beforeTypes]
  rfl

/-- An item defines its variable exactly when its type arrives. -/
private theorem applyDataItem_stillPresent (current : BinaryView) (item : GhidraDataItem) (addr : UInt64) :
    stillPresent
        (applyDataItem (rebaseOf view data) data.dataTypes (typesByName (afterTypes view data) data.dataTypes)
          current item) addr = true ↔
      (item.addr + rebaseOf view data = addr ∧ TypeArrives view data item.typeId) ∨
        stillPresent current addr = true := by
  unfold applyDataItem TypeArrives
  cases first : data.dataTypes.find? (fun dt => dt.id = item.typeId && dt.name ≠ "") with
  | none => simp
  | some dt =>
    have member := List.mem_of_find?_eq_some first
    have named : dt.name ≠ "" := by
      have matched := List.find?_some first
      simp only [Bool.and_eq_true, decide_eq_true_eq] at matched
      exact matched.2
    have arrives : dt.name ∈ typesByName (afterTypes view data) data.dataTypes ↔
        NameArrives view data dt.name := by
      rw [mem_typesByName, name_arrives_iff]
      exact ⟨fun held => held.2.2, fun held => ⟨⟨dt, member, rfl⟩, named, held⟩⟩
    cases known : (typesByName (afterTypes view data) data.dataTypes).lookup dt.name with
    | none =>
      have absent := mt arrives.mpr (AList.lookup_eq_none.mp known)
      simp [known, absent]
    | some type =>
      have held := arrives.mp (AList.lookup_isSome.mp (by simp [known]))
      simp only [known, stillPresent, BinaryView.defineUserDataVariable, Table.lookup_set,
        Option.some.injEq, exists_eq_left', held, and_true]
      by_cases here : addr = item.addr + rebaseOf view data
      · simp [here]
      · simp [here, Ne.symm here]

private theorem foldl_items_stillPresent (items : List GhidraDataItem) (current : BinaryView)
    (addr : UInt64) :
    stillPresent
        (items.foldl
          (applyDataItem (rebaseOf view data) data.dataTypes
            (typesByName (afterTypes view data) data.dataTypes)) current) addr = true ↔
      (∃ item ∈ items, item.addr + rebaseOf view data = addr ∧ TypeArrives view data item.typeId) ∨
        stillPresent current addr = true := by
  induction items generalizing current with
  | nil => simp
  | cons item rest ih =>
    rw [List.foldl_cons, ih, applyDataItem_stillPresent]
    simp only [List.mem_cons, exists_eq_or_imp]
    exact or_left_comm.trans or_assoc.symm

private theorem stillPresent_of_dataVariables {first second : BinaryView}
    (same : first.dataVariables = second.dataVariables) (addr : UInt64) :
    stillPresent first addr = stillPresent second addr := by
  unfold stillPresent
  rw [same]

/-- After the import, an address holds a defined variable where an item whose type
arrives is placed there, or where one was defined before. -/
theorem imported_present_iff (addr : UInt64) :
    stillPresent (applyToView view data).1 addr = true ↔
      (∃ item ∈ data.dataItems, item.addr + rebaseOf view data = addr ∧ TypeArrives view data item.typeId) ∨
        stillPresent view addr = true := by
  have before := BinaryView.dataVariables_eq_of_untyped (afterTypes_untyped view data)
  rw [stillPresent_of_dataVariables (applyToView_dataVariables view data), afterItems,
    foldl_items_stillPresent, stillPresent_of_dataVariables before]

theorem imported_item_present_iff {item : GhidraDataItem} :
    stillPresent (applyToView view data).1 (item.addr + rebaseOf view data) = true ↔
      ItemKept view data item := by
  rw [imported_present_iff, ItemKept]
  simp only [UInt64.add_left_inj]
  exact or_comm

end Import

private theorem deletions_only_from_baseline (state : CheckinState) (view : BinaryView) :
    (∀ change ∈ collectDataItems state view, change.op ≠ .delete) ↔
      ∀ addr ∈ state.ghidraDataItemAddrs, stillPresent view (addr + rebase state view) = true := by
  unfold collectDataItems
  constructor
  · intro kept addr held
    by_contra gone
    refine kept ⟨.delete, addr + rebase state view, ""⟩ (List.mem_append_right _ ?_) rfl
    simp only [List.mem_map, List.mem_filter]
    exact ⟨_, ⟨⟨addr, held, rfl⟩, by simpa using gone⟩, rfl⟩
  · intro present change member
    rcases List.mem_append.mp member with added | deleted
    · obtain ⟨entry, _, made⟩ := List.mem_filterMap.mp added
      unfold dataItemAdd at made
      dsimp only at made
      split at made
      · cases made
      · cases made
        simp
    · simp only [List.mem_map, List.mem_filter] at deleted
      obtain ⟨_, ⟨⟨addr, held, rfl⟩, gone⟩, rfl⟩ := deleted
      simp [present addr held] at gone

/-- An untouched check-in queues no deletion of a data item exactly when every
exported item is kept. -/
theorem untouched_checkin_keeps_data_items_iff (view : BinaryView) (data : GhidraDbExport)
    (repo folder item : String) :
    (∀ change ∈ (untouchedPreview view data repo folder item).dataItemChanges, change.op ≠ .delete) ↔
      item = "" ∨ ∀ dataItem ∈ data.dataItems, ItemKept view data dataItem := by
  unfold untouchedPreview collectCheckinChanges
  by_cases none : item = ""
  · simp [store, none]
  · have stored : (store (applyToView view data).2 repo folder item).checkinItem ≠ "" := none
    rw [if_neg stored]
    simp only [none, false_or, deletions_only_from_baseline, rebase_store]
    have baseline (addr : UInt64) :
        addr ∈ (store (applyToView view data).2 repo folder item).ghidraDataItemAddrs ↔
          ∃ dataItem ∈ data.dataItems, dataItem.addr = addr := by
      simp [store, applyToView, recordLists]
    constructor
    · intro present dataItem member
      exact (imported_item_present_iff view data).mp
        (present dataItem.addr ((baseline dataItem.addr).mpr ⟨dataItem, member, rfl⟩))
    · intro kept addr held
      obtain ⟨dataItem, member, rfl⟩ := (baseline addr).mp held
      exact (imported_item_present_iff view data).mpr (kept dataItem member)

/-- One data item of Ghidra's built-in type with id 7; nothing else is exported. -/
def builtinItemExport : GhidraDbExport :=
  { dataItems := [{ addr := 0x401000, typeId := 7 }], imageBase := 0x400000 }

/-- Its import into an empty view and an untouched check-in clear the item. -/
theorem builtin_item_is_deleted :
    ¬∀ change ∈ (untouchedPreview { start := 0x400000 } builtinItemExport "r" "/" "prog").dataItemChanges,
      change.op ≠ .delete := by
  decide

end GhidraBridge.DataItemBaseline
