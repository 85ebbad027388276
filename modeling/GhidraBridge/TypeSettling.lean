import GhidraBridge.FunctionPasses
import GhidraBridge.TypeBaseline

/-! The types of an import that is made twice. Equates and data types are registered
over whatever is there; a struct or a union takes the types of its members from
what is registered when its turn comes, and the second time that includes every
type of the export. -/
namespace GhidraBridge
open Lib

namespace SyncEngine

def registerEquate (view : BinaryView) (eq : GhidraEquate) : BinaryView :=
  if EquateRegisters eq then
    view.defineType (equateTypeId eq.id) eq.name (.enumeration 4 [⟨eq.name, eq.value.toUInt64⟩])
  else view

/-- The view with the types of the equates. -/
def withEquates (data : GhidraDbExport) (view : BinaryView) : BinaryView := data.equates.foldl registerEquate view

/-- The view with every type of the export. -/
def withTypes (data : GhidraDbExport) (view : BinaryView) : BinaryView :=
  data.dataTypes.foldl applyDataType (withEquates data view)

end SyncEngine

namespace TypeSettling
open SyncEngine BinaryView FunctionPasses

/-! ## What decides how names resolve -/

theorem registerEquate_scope (view : BinaryView) (eq : GhidraEquate) :
    (registerEquate view eq).scope = registerEquate view.scope eq := by
  unfold registerEquate
  split <;> rfl

theorem withEquates_scope (data : GhidraDbExport) (view : BinaryView) :
    (withEquates data view).scope = withEquates data view.scope := by
  unfold withEquates
  induction data.equates generalizing view with
  | nil => rfl
  | cons eq rest ih => rw [List.foldl_cons, ih, registerEquate_scope, List.foldl_cons]

theorem structureMembers_scope (view : BinaryView) (dt : GhidraDataType) :
    structureMembers view.scope dt = structureMembers view dt := by
  have typed (m : GhidraDataTypeMember) : memberType view.scope m = memberType view m := by
    rw [memberType, resolveTypeName_scope, memberType]
  simp only [structureMembers, typed]

theorem applyDataType_scope (view : BinaryView) (dt : GhidraDataType) :
    (applyDataType view dt).scope = applyDataType view.scope dt := by
  have defined : definitionOf view.scope dt = definitionOf view dt := by
    unfold definitionOf
    rw [structureMembers_scope]
    rfl
  rw [applyDataType_eq, applyDataType_eq, defined]
  split <;> rfl

theorem foldl_applyDataType_scope (dataTypes : List GhidraDataType) (view : BinaryView) :
    (dataTypes.foldl applyDataType view).scope = dataTypes.foldl applyDataType view.scope := by
  induction dataTypes generalizing view with
  | nil => rfl
  | cons dt rest ih => rw [List.foldl_cons, ih, applyDataType_scope, List.foldl_cons]

theorem withTypes_scope (data : GhidraDbExport) (view : BinaryView) :
    (withTypes data view).scope = withTypes data view.scope := by
  rw [withTypes, foldl_applyDataType_scope, withEquates_scope, withTypes]

theorem foldl_applyEquate_scope (rebase : UInt64) (data : GhidraDbExport) (view : BinaryView) :
    (data.equates.foldl (applyEquate rebase) view).scope = (withEquates data view).scope := by
  have step (view : BinaryView) (eq : GhidraEquate) :
      (applyEquate rebase view eq).scope = registerEquate view.scope eq := by
    have typed := applyEquate_typing rebase view eq
    rw [scope, typed, ← registerEquate_scope, registerEquate]
    split <;> rfl
  rw [withEquates_scope, withEquates]
  induction data.equates generalizing view with
  | nil => rfl
  | cons eq rest ih => rw [List.foldl_cons, ih, step, List.foldl_cons]

section
variable (view : BinaryView) (data : GhidraDbExport)

theorem beforeParameters_scope : (beforeParameters view data).scope = (withEquates data view).scope := by
  have bookmarks : (beforeParameters view data).scope =
      (data.equates.foldl (applyEquate (rebaseOf view data)) (applyMapped view data).view).scope :=
    scope_eq_of_typing (foldl_bookmarks_typing _ _ _)
  have mapped : (applyMapped view data).view.scope = view.scope := scope_eq_of_typing (applyMapped_typing view data)
  rw [bookmarks, foldl_applyEquate_scope, withEquates_scope, mapped, ← withEquates_scope]

theorem afterItems_scope : (afterItems view data).scope = (withTypes data view).scope := by
  have items : (afterItems view data).scope = (afterTypes view data).scope := by
    rw [afterItems_frame]
    rfl
  have parameters : (beforeTypes view data).scope = (beforeParameters view data).scope :=
    scope_eq_of_typing (foldl_parameters_typing _ _ _)
  rw [items, afterTypes, foldl_applyDataType_scope, parameters, beforeParameters_scope, ← foldl_applyDataType_scope]
  rfl

theorem applyToView_scope : (applyToView view data).1.scope = (withTypes data view).scope := by
  have signed : (applyToView view data).1.scope = (afterItems view data).scope :=
    scope_eq_of_typing (foldl_funcSigs_typing _ _ _)
  rw [signed, afterItems_scope]

end

/-! ## What is registered under a name -/

def equateEntry (eq : GhidraEquate) : RegisteredType :=
  ⟨equateTypeId eq.id, .enumeration 4 [⟨eq.name, eq.value.toUInt64⟩]⟩

theorem foldl_registerEquate (equates : List GhidraEquate) (view : BinaryView) :
    equates.foldl registerEquate view =
      { view with
        autoTypes :=
          view.autoTypes.writeAll GhidraEquate.name equateEntry (equates.filter fun eq => EquateRegisters eq) } := by
  induction equates generalizing view with
  | nil => rfl
  | cons eq rest ih =>
    rw [List.foldl_cons, ih, registerEquate, List.filter_cons]
    by_cases registers : EquateRegisters eq
    · rw [if_pos registers, if_pos (decide_eq_true registers)]
      rfl
    · rw [if_neg registers, if_neg (by simpa using registers)]

theorem withEquates_eq (data : GhidraDbExport) (view : BinaryView) :
    withEquates data view =
      { view with
        autoTypes :=
          view.autoTypes.writeAll GhidraEquate.name equateEntry (data.equates.filter fun eq => EquateRegisters eq) } :=
  foldl_registerEquate data.equates view

theorem foldl_applyDataType_eq (dataTypes : List GhidraDataType) (view : BinaryView) :
    dataTypes.foldl applyDataType view =
      { view with autoTypes := (dataTypes.foldl applyDataType view).autoTypes } :=
  List.foldlRecOn dataTypes _ (motive := fun v : BinaryView => v = { view with autoTypes := v.autoTypes }) rfl
    fun v same dt _ => by
      rw [applyDataType_frame, same]

/-- Registering touches the automatic types alone. -/
theorem withTypes_eq (data : GhidraDbExport) (view : BinaryView) :
    withTypes data view = { view with autoTypes := (withTypes data view).autoTypes } := by
  rw [withTypes, foldl_applyDataType_eq, withEquates_eq]

/-- The last data type of a name decides what it stands for. -/
theorem lookup_of_last {dataTypes before after : List GhidraDataType} {dt : GhidraDataType}
    (position : dataTypes = before ++ dt :: after) (registers : Registers dt)
    (last : ∀ later ∈ after, Registers later → later.name ≠ dt.name) (view : BinaryView) :
    (dataTypes.foldl applyDataType view).autoTypes.lookup dt.name =
      some ⟨view.host.generateAutoTypeId "ghidra" dt.name, definitionOf (before.foldl applyDataType view) dt⟩ := by
  have host : (before.foldl applyDataType view).host = view.host := by rw [foldl_applyDataType_eq]
  rw [position, List.foldl_append, List.foldl_cons, TypeBaseline.lookup_autoTypes_of_absent last, applyDataType_eq,
    if_pos registers, registerType, defineType, Table.lookup_set, if_pos rfl, host]

theorem mem_autoTypes_of_registers (dataTypes : List GhidraDataType) (view : BinaryView) :
    ∀ dt ∈ dataTypes, Registers dt → dt.name ∈ (dataTypes.foldl applyDataType view).autoTypes := by
  refine @Fold.foldl_establishes BinaryView GhidraDataType applyDataType
    (fun dt v => Registers dt → dt.name ∈ v.autoTypes) (fun v dt registers => ?_) (fun v dt other held registers => ?_)
    dataTypes view
  · rw [applyDataType_eq, if_pos registers]
    exact Table.mem_set.mpr (.inl rfl)
  · rw [applyDataType_eq]
    split
    · exact Table.mem_set.mpr (.inr (held registers))
    · exact held registers

theorem mem_autoTypes_kept {name : String} {view : BinaryView} (dataTypes : List GhidraDataType)
    (held : name ∈ view.autoTypes) : name ∈ (dataTypes.foldl applyDataType view).autoTypes :=
  List.foldlRecOn dataTypes _ (motive := fun v : BinaryView => name ∈ v.autoTypes) held fun v held dt _ => by
    rw [applyDataType_eq]
    split
    · exact Table.mem_set.mpr (.inr held)
    · exact held

theorem keys_of_registered {dataTypes : List GhidraDataType} {view : BinaryView}
    (there : ∀ dt ∈ dataTypes, Registers dt → dt.name ∈ view.autoTypes) :
    (dataTypes.foldl applyDataType view).autoTypes.keys = view.autoTypes.keys :=
  List.foldlRecOn dataTypes _ (motive := fun v : BinaryView => v.autoTypes.keys = view.autoTypes.keys) rfl
    fun v same dt member => by
      rw [applyDataType_eq]
      split
      · rename_i registers
        have held : dt.name ∈ v.autoTypes := by
          rw [AList.mem_keys, same]
          exact AList.mem_keys.mp (there dt member registers)
        exact (Table.keys_set_of_mem held _).trans same
      · exact same

/-- The second time, every name is there already. -/
theorem keys_withTypes_twice (data : GhidraDbExport) (view : BinaryView) :
    (withTypes data (withTypes data view)).autoTypes.keys = (withTypes data view).autoTypes.keys := by
  have equated : (withEquates data (withTypes data view)).autoTypes.keys = (withTypes data view).autoTypes.keys := by
    rw [withEquates_eq]
    refine Table.keys_writeAll_of_mem _ fun eq member => mem_autoTypes_kept data.dataTypes ?_
    rw [withEquates_eq]
    exact Table.mem_writeAll _ member
  refine (keys_of_registered fun dt member registers => ?_).trans equated
  rw [AList.mem_keys, equated]
  exact AList.mem_keys.mp (mem_autoTypes_of_registers data.dataTypes _ dt member registers)

/-! ## The types of the members -/

/-- A struct or a union with a name. -/
def Composite (dt : GhidraDataType) : Prop := dt.name ≠ "" ∧ (dt.kind = .struct ∨ dt.kind = .union)

/-- Each member of the last struct or union of a name is given the same type at its
turn, whether or not the types of the export were registered before. -/
def MembersSettled (data : GhidraDbExport) (view : BinaryView) : Prop :=
  ∀ before dt after, data.dataTypes = before ++ dt :: after → Composite dt →
    (∀ later ∈ after, Registers later → later.name ≠ dt.name) → ∀ m ∈ dt.members, m.name ≠ "" →
      memberType (before.foldl applyDataType (withEquates data (withTypes data view))) m =
        memberType (before.foldl applyDataType (withEquates data view)) m

theorem structureMembers_eq_iff (first second : BinaryView) (dt : GhidraDataType) :
    structureMembers first dt = structureMembers second dt ↔
      ∀ m ∈ dt.members, m.name ≠ "" → memberType first m = memberType second m := by
  rw [structureMembers, structureMembers, List.map_inj_left]
  simp only [List.mem_filter, decide_eq_true_eq, and_imp, BNMember.mk.injEq, and_true]

/-- Only what the members resolve to can tell two definitions apart. -/
theorem definitionOf_eq_iff {first second : BinaryView} (host : first.host = second.host) {dt : GhidraDataType}
    (registers : Registers dt) :
    definitionOf first dt = definitionOf second dt ↔
      (Composite dt → structureMembers first dt = structureMembers second dt) := by
  by_cases members : dt.kind = .struct ∨ dt.kind = .union
  · have composite : Composite dt := ⟨registers.1, members⟩
    rcases members with kind | kind
    all_goals
      simp only [definitionOf, kind, composite, forall_const, TypeDefinition.composite.injEq, true_and, host]
      exact ⟨And.right, fun same => ⟨by rw [same], same⟩⟩
  · have plain : ¬Composite dt := fun composite => members composite.2
    obtain ⟨struct, union⟩ := not_or.mp members
    refine iff_of_true ?_ fun composite => absurd composite plain
    unfold definitionOf
    split
    · exact absurd ‹_› struct
    · exact absurd ‹_› union
    · rfl
    · rfl

/-- Registering the types of an export a second time changes none exactly when the
members are settled. -/
theorem withTypes_twice_iff (data : GhidraDbExport) (view : BinaryView) :
    (withTypes data (withTypes data view)).autoTypes = (withTypes data view).autoTypes ↔ MembersSettled data view := by
  have host : (withEquates data (withTypes data view)).host = (withEquates data view).host := by
    rw [withEquates_eq, withTypes_eq, withEquates_eq]
  have turns (before : List GhidraDataType) :
      (before.foldl applyDataType (withEquates data (withTypes data view))).host =
        (before.foldl applyDataType (withEquates data view)).host := by
    rw [foldl_applyDataType_eq, host, foldl_applyDataType_eq before (withEquates data view)]
  constructor
  · intro same before dt after position composite last
    have registers : Registers dt := ⟨composite.1, composite.2.elim .inl fun union => .inr (.inl union)⟩
    have found := congrArg (fun types : Table String RegisteredType => types.lookup dt.name) same
    rw [withTypes, lookup_of_last position registers last, withTypes, lookup_of_last position registers last] at found
    have defined := congrArg RegisteredType.definition (Option.some.inj found)
    exact (structureMembers_eq_iff _ _ dt).mp ((definitionOf_eq_iff (turns before) registers).mp defined composite)
  · intro settled
    refine Table.ext_lookup (keys_withTypes_twice data view) fun name => ?_
    by_cases registered : ∃ dt ∈ data.dataTypes, Registers dt ∧ dt.name = name
    · -- the last of the name decides, and it is defined alike both times
      obtain ⟨before, dt, after, position, ⟨registers, rfl⟩, last⟩ := Fold.exists_last registered
      have later (other : GhidraDataType) (member : other ∈ after) (registers : Registers other) :
          other.name ≠ dt.name := fun same => last other member ⟨registers, same⟩
      have defined := (definitionOf_eq_iff (turns before) registers).mpr fun composite =>
        (structureMembers_eq_iff _ _ dt).mpr (settled before dt after position composite later)
      rw [withTypes, lookup_of_last position registers later, withTypes, lookup_of_last position registers later]
      rw [← withTypes, defined, host]
    · have absent (dt : GhidraDataType) (member : dt ∈ data.dataTypes) (registers : Registers dt) : dt.name ≠ name :=
        fun same => registered ⟨dt, member, registers, same⟩
      have kept (view : BinaryView) :
          (withTypes data view).autoTypes.lookup name = (withEquates data view).autoTypes.lookup name :=
        TypeBaseline.lookup_autoTypes_of_absent absent
      rw [kept, withEquates_eq, Table.lookup_writeAll, kept, withEquates_eq, Table.lookup_writeAll, ← Option.or_assoc,
        Option.or_self]

end TypeSettling
end GhidraBridge
