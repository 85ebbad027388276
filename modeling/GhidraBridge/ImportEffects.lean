import GhidraBridge.Collect

/-! What each pass of the import can change. Every pass writes a few fields of
the view and leaves the rest alone; the passes are folds of their steps, so one
lemma per step gives one lemma per pass. -/
namespace GhidraBridge
open Lib

/-- The view less the fields that only the untyped passes write: what is left
decides how type names resolve and where data variables are. -/
def BinaryView.typing (view : BinaryView) : BinaryView :=
  { view with
    segments := [], sections := [], symbols := [], functions := [], comments := ∅, tagTypes := [],
    dataTags := [] }

/-- The same less the automatic types. -/
def BinaryView.untyped (view : BinaryView) : BinaryView := { view.typing with autoTypes := ∅ }

namespace BinaryView
variable {first second : BinaryView}

theorem types_eq_of_typing (same : first.typing = second.typing) : first.types = second.types := by
  have kept := congrArg BinaryView.types same
  exact kept

theorem autoTypes_eq_of_typing (same : first.typing = second.typing) :
    first.autoTypes = second.autoTypes := by
  have kept := congrArg BinaryView.autoTypes same
  exact kept

theorem userTypes_eq_of_untyped (same : first.untyped = second.untyped) :
    first.userTypes = second.userTypes := by
  have kept := congrArg BinaryView.userTypes same
  exact kept

theorem untyped_eq_of_typing (same : first.typing = second.typing) : first.untyped = second.untyped := by
  unfold untyped
  rw [same]

theorem dataVariables_eq_of_untyped (same : first.untyped = second.untyped) :
    first.dataVariables = second.dataVariables := by
  have kept := congrArg BinaryView.dataVariables same
  exact kept

theorem host_eq_of_untyped (same : first.untyped = second.untyped) : first.host = second.host := by
  have kept := congrArg BinaryView.host same
  exact kept

theorem start_eq_of_untyped (same : first.untyped = second.untyped) : first.start = second.start := by
  have kept := congrArg BinaryView.start same
  exact kept

end BinaryView

namespace SyncEngine

theorem getOrCreateTagType_typing (view : BinaryView) (name : String) :
    (getOrCreateTagType view name).typing = view.typing := by
  unfold getOrCreateTagType
  split <;> rfl

theorem applyMemoryBlock_typing (rebase : UInt64) (s : ImportState) (mb : GhidraMemoryBlock) :
    (applyMemoryBlock rebase s mb).view.typing = s.view.typing := by
  unfold applyMemoryBlock
  split
  · rfl
  · dsimp only
    split <;> rfl

theorem applySymbol_typing (rebase : UInt64) (s : ImportState) (sym : GhidraSymbol) :
    (applySymbol rebase s sym).view.typing = s.view.typing := by
  unfold applySymbol
  dsimp only
  split <;> split <;> rfl

theorem applyAddressComment_typing (caddr : UInt64) (comm : GhidraComment) (s : ImportState) :
    (applyAddressComment caddr comm s).view.typing = s.view.typing := by
  unfold applyAddressComment
  dsimp only
  split
  · rfl
  · dsimp only
    split <;> rfl

theorem applyPlateComment_typing (caddr : UInt64) (comm : GhidraComment) (s : ImportState) :
    (applyPlateComment caddr comm s).view.typing = s.view.typing := by
  unfold applyPlateComment
  split
  · rfl
  · split
    · rfl
    · dsimp only
      split <;> rfl

theorem applyComment_typing (rebase : UInt64) (s : ImportState) (comm : GhidraComment) :
    (applyComment rebase s comm).view.typing = s.view.typing := by
  unfold applyComment
  dsimp only
  rw [applyPlateComment_typing, applyAddressComment_typing]

theorem tagFunction_typing (flag : Bool) (tagType : String) (addr : UInt64) (view : BinaryView) :
    (tagFunction flag tagType addr view).typing = view.typing := by
  unfold tagFunction
  split
  · exact getOrCreateTagType_typing view tagType
  · rfl

theorem applyFuncFlags_typing (s : ImportState) (ff : GhidraFuncFlags) :
    (applyFuncFlags s ff).view.typing = s.view.typing := by
  unfold applyFuncFlags
  split
  · rfl
  · split
    · rfl
    · simp only [tagFunction_typing]

theorem applyBookmark_typing (rebase : UInt64) (view : BinaryView) (bm : GhidraBookmark) :
    (applyBookmark rebase view bm).typing = view.typing :=
  getOrCreateTagType_typing view _

theorem applyParameter_typing (rebase : UInt64) (view : BinaryView) (param : GhidraParameter) :
    (applyParameter rebase view param).typing = view.typing := by
  unfold applyParameter
  dsimp only
  repeat' split
  all_goals rfl

theorem applyFuncSig_typing (keyToAddr : Table Int64 UInt64) (view : BinaryView) (sig : GhidraFuncSig) :
    (applyFuncSig keyToAddr view sig).typing = view.typing := by
  have convention (addr : UInt64) (name : String) (view : BinaryView) :
      (applyConvention addr name view).typing = view.typing := by
    unfold applyConvention
    repeat' split
    all_goals rfl
  have returnType (addr : UInt64) (name : String) (view : BinaryView) :
      (applyReturnType addr name view).typing = view.typing := by
    unfold applyReturnType
    repeat' split
    all_goals rfl
  unfold applyFuncSig
  split
  · rfl
  · rw [returnType, convention]

/-- The passes that run before the typed ones leave types and data variables alone. -/
theorem applyMapped_typing (view : BinaryView) (data : GhidraDbExport) :
    (applyMapped view data).view.typing = view.typing := by
  unfold applyMapped
  dsimp only
  apply List.foldlRecOn data.funcFlags applyFuncFlags
    (motive := fun s : ImportState => s.view.typing = view.typing)
  · apply List.foldlRecOn data.comments _ (motive := fun s : ImportState => s.view.typing = view.typing)
    · apply List.foldlRecOn data.symbols _ (motive := fun s : ImportState => s.view.typing = view.typing)
      · apply List.foldlRecOn data.memoryBlocks _ (motive := fun s : ImportState => s.view.typing = view.typing)
        · rfl
        · exact fun s same mb _ => (applyMemoryBlock_typing _ s mb).trans same
      · exact fun s same sym _ => (applySymbol_typing _ s sym).trans same
    · exact fun s same comm _ => (applyComment_typing _ s comm).trans same
  · exact fun s same ff _ => (applyFuncFlags_typing s ff).trans same

theorem foldl_funcSigs_typing (keyToAddr : Table Int64 UInt64) (sigs : List GhidraFuncSig)
    (view : BinaryView) : (sigs.foldl (applyFuncSig keyToAddr) view).typing = view.typing :=
  List.foldlRecOn sigs _ (motive := fun v : BinaryView => v.typing = view.typing) rfl
    fun v same sig _ => (applyFuncSig_typing keyToAddr v sig).trans same

theorem foldl_bookmarks_typing (rebase : UInt64) (bookmarks : List GhidraBookmark) (view : BinaryView) :
    (bookmarks.foldl (applyBookmark rebase) view).typing = view.typing :=
  List.foldlRecOn bookmarks _ (motive := fun v : BinaryView => v.typing = view.typing) rfl
    fun v same bm _ => (applyBookmark_typing rebase v bm).trans same

theorem foldl_parameters_typing (rebase : UInt64) (parameters : List GhidraParameter)
    (view : BinaryView) :
    (parameters.foldl (applyParameter rebase) view).typing = view.typing :=
  List.foldlRecOn parameters _ (motive := fun v : BinaryView => v.typing = view.typing) rfl
    fun v same param _ => (applyParameter_typing rebase v param).trans same

/-! ## Registration -/

/-- An equate makes a type when it has a name and a reference. -/
def EquateRegisters (eq : GhidraEquate) : Prop := eq.name ≠ "" ∧ eq.refs ≠ []

instance (eq : GhidraEquate) : Decidable (EquateRegisters eq) := inferInstanceAs (Decidable (_ ∧ _))

/-- A data type is registered unless it has no name, is of another kind, or is a
typedef without an underlying name. -/
def Registers (dt : GhidraDataType) : Prop :=
  dt.name ≠ "" ∧
    (dt.kind = .struct ∨ dt.kind = .union ∨ dt.kind = .enum ∨
      (dt.kind = .typedef ∧ dt.underlyingTypeName ≠ ""))

instance (dt : GhidraDataType) : Decidable (Registers dt) := inferInstanceAs (Decidable (_ ∧ _))

/-- What a registering data type stands for. -/
def definitionOf (view : BinaryView) (dt : GhidraDataType) : TypeDefinition :=
  match dt.kind with
  | .struct =>
    .composite false (view.host.layout false (structureMembers view dt)) (structureMembers view dt)
  | .union =>
    .composite true (view.host.layout true (structureMembers view dt)) (structureMembers view dt)
  | .enum =>
    .enumeration (if 0 < dt.size then dt.size.toNatClampNeg else 4)
      (dt.values.map fun v => ⟨v.name, v.value.toUInt64⟩)
  | _ => .typedef dt.underlyingTypeName dt.size.toNatClampNeg

theorem applyDataType_eq (view : BinaryView) (dt : GhidraDataType) :
    applyDataType view dt =
      if Registers dt then registerType view dt.name (definitionOf view dt) else view := by
  by_cases registers : Registers dt
  · rw [if_pos registers]
    obtain ⟨named, kind | kind | kind | ⟨kind, underlying⟩⟩ := registers
    · simp [applyDataType, registerStructure, definitionOf, named, kind]
    · simp [applyDataType, registerStructure, definitionOf, named, kind]
    · simp [applyDataType, definitionOf, named, kind]
    · simp [applyDataType, definitionOf, named, kind, underlying]
  · rw [if_neg registers]
    unfold applyDataType
    unfold Registers at registers
    split
    · rfl
    · split <;> simp_all

theorem foldl_bindEquate_typing (rebase : UInt64) (eq : GhidraEquate) (refs : List GhidraEquateRef)
    (view : BinaryView) : (refs.foldl (bindEquate rebase eq) view).typing = view.typing :=
  List.foldlRecOn refs _ (motive := fun v : BinaryView => v.typing = view.typing) rfl fun _ same _ _ => same

theorem applyEquate_typing (rebase : UInt64) (view : BinaryView) (eq : GhidraEquate) :
    (applyEquate rebase view eq).typing =
      if EquateRegisters eq then
        (view.defineType (equateTypeId eq.id) eq.name (.enumeration 4 [⟨eq.name, eq.value.toUInt64⟩])).typing
      else view.typing := by
  by_cases registers : EquateRegisters eq
  · have kept : ¬(eq.name = "" ∨ eq.refs = []) := not_or.mpr registers
    rw [if_pos registers, applyEquate, if_neg kept]
    dsimp only
    split
    · rfl
    · exact foldl_bindEquate_typing rebase eq eq.refs _
  · have skipped : eq.name = "" ∨ eq.refs = [] := by
      by_contra kept
      exact registers (not_or.mp kept)
    rw [if_neg registers, applyEquate, if_pos skipped]

theorem applyEquate_untyped (rebase : UInt64) (view : BinaryView) (eq : GhidraEquate) :
    (applyEquate rebase view eq).untyped = view.untyped := by
  have step := applyEquate_typing rebase view eq
  unfold BinaryView.untyped
  rw [step]
  split <;> rfl

theorem applyDataType_untyped (view : BinaryView) (dt : GhidraDataType) :
    (applyDataType view dt).untyped = view.untyped := by
  rw [applyDataType_eq]
  split <;> rfl

theorem mem_types_applyEquate {rebase : UInt64} {view : BinaryView} {eq : GhidraEquate} {name : String} :
    name ∈ (applyEquate rebase view eq).types ↔
      (EquateRegisters eq ∧ eq.name = name) ∨ name ∈ view.types := by
  have step := applyEquate_typing rebase view eq
  by_cases registers : EquateRegisters eq
  · rw [if_pos registers] at step
    rw [BinaryView.types_eq_of_typing step]
    simp only [BinaryView.mem_types, BinaryView.defineType, Table.mem_set, registers, true_and, eq_comm]
    exact or_left_comm
  · rw [if_neg registers] at step
    rw [BinaryView.types_eq_of_typing step]
    simp [registers]

theorem mem_types_applyDataType {view : BinaryView} {dt : GhidraDataType} {name : String} :
    name ∈ (applyDataType view dt).types ↔ (Registers dt ∧ dt.name = name) ∨ name ∈ view.types := by
  rw [applyDataType_eq]
  by_cases registers : Registers dt
  · simp only [registers, if_true, BinaryView.mem_types, registerType, BinaryView.defineType,
      Table.mem_set, true_and, eq_comm]
    exact or_left_comm
  · simp [registers]

theorem mem_types_equates {rebase : UInt64} {view : BinaryView} {equates : List GhidraEquate}
    {name : String} :
    name ∈ (equates.foldl (applyEquate rebase) view).types ↔
      (∃ eq ∈ equates, EquateRegisters eq ∧ eq.name = name) ∨ name ∈ view.types := by
  induction equates generalizing view with
  | nil => simp
  | cons eq rest ih =>
    rw [List.foldl_cons, ih, mem_types_applyEquate]
    simp only [List.mem_cons, exists_eq_or_imp]
    exact or_left_comm.trans or_assoc.symm

theorem mem_types_dataTypes {view : BinaryView} {dataTypes : List GhidraDataType} {name : String} :
    name ∈ (dataTypes.foldl applyDataType view).types ↔
      (∃ dt ∈ dataTypes, Registers dt ∧ dt.name = name) ∨ name ∈ view.types := by
  induction dataTypes generalizing view with
  | nil => simp
  | cons dt rest ih =>
    rw [List.foldl_cons, ih, mem_types_applyDataType]
    simp only [List.mem_cons, exists_eq_or_imp]
    exact or_left_comm.trans or_assoc.symm

theorem foldl_equates_untyped (rebase : UInt64) (equates : List GhidraEquate) (view : BinaryView) :
    (equates.foldl (applyEquate rebase) view).untyped = view.untyped :=
  List.foldlRecOn equates _ (motive := fun v : BinaryView => v.untyped = view.untyped) rfl
    fun v same eq _ => (applyEquate_untyped rebase v eq).trans same

theorem foldl_dataTypes_untyped (dataTypes : List GhidraDataType) (view : BinaryView) :
    (dataTypes.foldl applyDataType view).untyped = view.untyped :=
  List.foldlRecOn dataTypes _ (motive := fun v : BinaryView => v.untyped = view.untyped) rfl
    fun v same dt _ => (applyDataType_untyped v dt).trans same

/-- The view the data types are registered in, one after another. -/
def beforeTypes (view : BinaryView) (data : GhidraDbExport) : BinaryView :=
  let rebase := rebaseOf view data
  let mapped := data.equates.foldl (applyEquate rebase) (applyMapped view data).view
  data.parameters.foldl (applyParameter rebase) (data.bookmarks.foldl (applyBookmark rebase) mapped)

/-- The view with every data type registered, before the data items. -/
def afterTypes (view : BinaryView) (data : GhidraDbExport) : BinaryView :=
  data.dataTypes.foldl applyDataType (beforeTypes view data)

theorem beforeTypes_untyped (view : BinaryView) (data : GhidraDbExport) :
    (beforeTypes view data).untyped = view.untyped := by
  have later := (foldl_parameters_typing (rebaseOf view data) data.parameters _).trans
    (foldl_bookmarks_typing (rebaseOf view data) data.bookmarks
      (data.equates.foldl (applyEquate (rebaseOf view data)) (applyMapped view data).view))
  exact (BinaryView.untyped_eq_of_typing later).trans
    ((foldl_equates_untyped _ _ _).trans (BinaryView.untyped_eq_of_typing (applyMapped_typing view data)))

theorem afterTypes_untyped (view : BinaryView) (data : GhidraDbExport) :
    (afterTypes view data).untyped = view.untyped :=
  (foldl_dataTypes_untyped _ _).trans (beforeTypes_untyped view data)

/-- Before the data types, the view knows its own types and those of the equates. -/
theorem mem_types_beforeTypes {view : BinaryView} {data : GhidraDbExport} {name : String} :
    name ∈ (beforeTypes view data).types ↔
      (∃ eq ∈ data.equates, EquateRegisters eq ∧ eq.name = name) ∨ name ∈ view.types := by
  have later := BinaryView.types_eq_of_typing
    ((foldl_parameters_typing (rebaseOf view data) data.parameters _).trans
      (foldl_bookmarks_typing (rebaseOf view data) data.bookmarks
        (data.equates.foldl (applyEquate (rebaseOf view data)) (applyMapped view data).view)))
  have mapped := BinaryView.types_eq_of_typing (applyMapped_typing view data)
  rw [beforeTypes]
  rw [later, mem_types_equates, mapped]

/-! ## The whole import -/

/-- The data items only write data variables. -/
theorem foldl_items_eq (rebase : UInt64) (dataTypes : List GhidraDataType) (known : Table String BNType)
    (items : List GhidraDataItem) (view : BinaryView) :
    items.foldl (applyDataItem rebase dataTypes known) view =
      { view with
        dataVariables := (items.foldl (applyDataItem rebase dataTypes known) view).dataVariables } := by
  apply List.foldlRecOn items _
    (motive := fun v : BinaryView => v = { view with dataVariables := v.dataVariables })
  · rfl
  · intro v same item _
    unfold applyDataItem
    split
    · exact same
    · split
      · exact same
      · rw [same]
        rfl

section
variable (view : BinaryView) (data : GhidraDbExport)

/-- The view with the data items, before the signatures. -/
def afterItems : BinaryView :=
  data.dataItems.foldl
    (applyDataItem (rebaseOf view data) data.dataTypes (typesByName (afterTypes view data) data.dataTypes))
    (afterTypes view data)

private theorem applyToView_typing : (applyToView view data).1.typing = (afterItems view data).typing :=
  foldl_funcSigs_typing (applyMapped view data).keyToAddr data.funcSigs (afterItems view data)

private theorem afterItems_eq :
    afterItems view data = { afterTypes view data with dataVariables := (afterItems view data).dataVariables } :=
  foldl_items_eq _ _ _ _ _

/-- After the import the view lists the types it listed once they were registered. -/
theorem applyToView_types : (applyToView view data).1.types = (afterTypes view data).types := by
  rw [BinaryView.types_eq_of_typing (applyToView_typing view data), afterItems_eq]
  rfl

theorem applyToView_dataVariables :
    (applyToView view data).1.dataVariables = (afterItems view data).dataVariables :=
  BinaryView.dataVariables_eq_of_untyped (BinaryView.untyped_eq_of_typing (applyToView_typing view data))

theorem applyToView_host : (applyToView view data).1.host = view.host := by
  have signed := BinaryView.untyped_eq_of_typing (applyToView_typing view data)
  have kept := BinaryView.host_eq_of_untyped (afterTypes_untyped view data)
  rw [BinaryView.host_eq_of_untyped signed, afterItems_eq]
  exact kept

theorem applyToView_start : (applyToView view data).1.start = view.start := by
  have signed := BinaryView.untyped_eq_of_typing (applyToView_typing view data)
  have kept := BinaryView.start_eq_of_untyped (afterTypes_untyped view data)
  rw [BinaryView.start_eq_of_untyped signed, afterItems_eq]
  exact kept

theorem applyToView_userTypes : (applyToView view data).1.userTypes = view.userTypes := by
  have signed := BinaryView.untyped_eq_of_typing (applyToView_typing view data)
  have kept := BinaryView.userTypes_eq_of_untyped (afterTypes_untyped view data)
  rw [BinaryView.userTypes_eq_of_untyped signed, afterItems_eq]
  exact kept

end

theorem recordCommentKey_imageBase (caddr : UInt64) (comm : GhidraComment) (result : SyncResult) :
    (recordCommentKey caddr comm result).imageBase = result.imageBase := by
  unfold recordCommentKey
  split <;> rfl

theorem applyComment_imageBase (rebase : UInt64) (s : ImportState) (comm : GhidraComment) :
    (applyComment rebase s comm).result.imageBase = s.result.imageBase := by
  have address (caddr : UInt64) (s : ImportState) :
      (applyAddressComment caddr comm s).result.imageBase = s.result.imageBase := by
    unfold applyAddressComment
    dsimp only
    split <;> rfl
  have plate (caddr : UInt64) (s : ImportState) :
      (applyPlateComment caddr comm s).result.imageBase = s.result.imageBase := by
    unfold applyPlateComment
    split
    · rfl
    · split <;> rfl
  unfold applyComment
  dsimp only
  rw [plate, address, recordCommentKey_imageBase]

/-- The result carries Ghidra's base, so a later check-in rebases by the same difference. -/
theorem applyToView_imageBase (view : BinaryView) (data : GhidraDbExport) :
    (applyToView view data).2.imageBase = data.imageBase := by
  change (applyMapped view data).result.imageBase = data.imageBase
  unfold applyMapped
  dsimp only
  apply List.foldlRecOn data.funcFlags applyFuncFlags
    (motive := fun s : ImportState => s.result.imageBase = data.imageBase)
  · apply List.foldlRecOn data.comments _
      (motive := fun s : ImportState => s.result.imageBase = data.imageBase)
    · apply List.foldlRecOn data.symbols _
        (motive := fun s : ImportState => s.result.imageBase = data.imageBase)
      · apply List.foldlRecOn data.memoryBlocks _
          (motive := fun s : ImportState => s.result.imageBase = data.imageBase)
        · rfl
        · intro s same mb _
          unfold applyMemoryBlock
          split <;> exact same
      · exact fun s same sym _ => same
    · exact fun s same comm _ => (applyComment_imageBase _ s comm).trans same
  · intro s same ff _
    unfold applyFuncFlags
    split
    · exact same
    · split <;> exact same

/-- While the view keeps its base, the check-in state stored after an import
rebases as the import did. -/
theorem rebase_store_later {view later : BinaryView} (data : GhidraDbExport) (repo folder item : String)
    (sameStart : later.start = view.start) :
    CheckinState.rebase (CheckinState.store (applyToView view data).2 repo folder item) later =
      rebaseOf view data := by
  unfold CheckinState.rebase rebaseOf CheckinState.store
  rw [sameStart]
  exact congrArg (view.start - ·) (applyToView_imageBase view data)

theorem rebase_store (view : BinaryView) (data : GhidraDbExport) (repo folder item : String) :
    CheckinState.rebase (CheckinState.store (applyToView view data).2 repo folder item)
      (applyToView view data).1 = rebaseOf view data :=
  rebase_store_later data repo folder item (applyToView_start view data)

/-- What an untouched check-in collects after the import of an export. -/
def untouchedPreview (view : BinaryView) (data : GhidraDbExport) (repo folder item : String) :
    GhidraCheckinPreview :=
  (CheckinState.store (applyToView view data).2 repo folder item).collectCheckinChanges
    (applyToView view data).1

end SyncEngine
end GhidraBridge
