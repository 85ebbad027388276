import GhidraBridge.BaselineMoves
import GhidraBridge.CheckinRetention

/-! The ids of types a check-in adds. The reply has an id for each of them, and the loop
that records the ids runs before the loop that makes the baseline entries: of a type that is
new it finds no entry to write to, and the entry is made with the id 0. -/
namespace GhidraBridge.AddedTypeIds
open Lib CheckinState BaselineMoves CheckinRetention

section
variable (conn : GhidraConnection) (view : BinaryView) (comment : String) (resp : Json)

/-- The check-in of everything collected, with this reply. -/
def checkinWith : CheckinOutcome × GhidraConnection :=
  conn.checkin view (conn.checkinState.collectCheckinChanges view) comment fun _ => .ok resp

/-- The state the check-in leaves. -/
def stateAfter : CheckinState := (checkinWith conn view comment resp).2.checkinState

/-- The type is sent with the operation `add`. -/
def SentAsAdd (name : String) : Prop :=
  ∃ dt ∈ (conn.checkinState.collectCheckinChanges view).dataTypeChanges, dt.op = .add ∧ dt.name = name

/-- The reply's `added_type_ids` have this id for the name, and no other. -/
def MapsTo (resp : Json) (name : String) (id : Int64) : Prop :=
  ∃ value, (name, value) ∈ addedTypeIds resp ∧ (∀ entry ∈ addedTypeIds resp, entry.1 = name → entry.2 = value) ∧
    value.isNumber = true ∧ value.getInt64 = .ok id

/-- The baseline has the id for the name, and whatever is made of the view, a change of the
type is sent with it. -/
structure IdKept (name : String) (id : Int64) : Prop where
  stored : ∃ base, (stateAfter conn view comment resp).ghidraTypesByName.lookup name = some base ∧ base.id = id
  sentNext : ∀ later : BinaryView,
    ∀ dt ∈ ((stateAfter conn view comment resp).collectCheckinChanges later).dataTypeChanges,
      dt.name = name → dt.ghidraId = id

/-- Every added type has the id of the reply. -/
def AddedIdsKept : Prop :=
  ∀ name id, SentAsAdd conn view name → MapsTo resp name id → IdKept conn view comment resp name id

end

/-! ## Ids in the baseline -/

section
variable {state next : CheckinState} {view : BinaryView} {dt : DataTypeChange}

/-- The id stored for a name; 0 where there is no entry. -/
def idOf (types : Table String GhidraDataType) (name : String) : Int64 :=
  ((types.lookup name).map GhidraDataType.id).getD 0

theorem idOf_recordDataType {types : Table String GhidraDataType} {name : String} {change : DataTypeChange}
    (quiet : change.name = name → change.op ≠ .delete ∧ change.ghidraId = 0) :
    idOf (recordDataType types change) name = idOf types name := by
  by_cases here : change.name = name
  · obtain ⟨stays, noId⟩ := quiet here
    rw [recordDataType, if_neg stays, idOf, Table.lookup_set, if_pos here.symm, here]
    cases held : types.lookup name <;> simp [storedType, noId, idOf, held]
  · have elsewhere : (recordDataType types change).lookup name = types.lookup name := by
      unfold recordDataType
      split
      · rw [Table.lookup_erase_eq, if_neg (Ne.symm here)]
      · rw [Table.lookup_set, if_neg (Ne.symm here)]
    rw [idOf, elsewhere, idOf]

theorem idOf_recordDataTypes {changes : List DataTypeChange} {types : Table String GhidraDataType} {name : String}
    (quiet : ∀ change ∈ changes, change.name = name → change.op ≠ .delete ∧ change.ghidraId = 0) :
    idOf (changes.foldl recordDataType types) name = idOf types name := by
  induction changes generalizing types with
  | nil => rfl
  | cons change rest ih =>
    rw [List.foldl_cons, ih fun later member => quiet later (List.mem_cons_of_mem change member),
      idOf_recordDataType (quiet change List.mem_cons_self)]

/-- A type without a baseline entry is added without an id, and any other change has the id
of the entry. -/
theorem ghidraId_of_collected (member : dt ∈ collectDataTypes state view) :
    dt.ghidraId = idOf state.ghidraTypesByName dt.name ∧
      (dt.op = .add ↔ state.ghidraTypesByName.lookup dt.name = none) := by
  rcases mem_collectDataTypes member with ⟨registered, -, made⟩ | ⟨deletes, -, base, held, shape⟩
  · obtain ⟨-, -, change, described, -, differs⟩ := typeChange_eq_some made
    unfold typeChange at made
    split at made
    · cases made
    split at made
    · cases made
    rw [described, Option.bind_some] at made
    cases held : state.ghidraTypesByName.lookup dt.name with
    | none =>
      rw [held] at made
      have same := Option.some.inj made
      exact ⟨by rw [idOf, held, ← same]; rfl, by rw [← same]; simp⟩
    | some base =>
      rw [held] at made
      dsimp only at made
      rw [if_pos (differs base held)] at made
      have same := Option.some.inj made
      exact ⟨by rw [idOf, held, ← same]; rfl, by rw [← same]; simp⟩
  · refine ⟨?_, ?_⟩
    · rw [idOf, held, shape]
      rfl
    · rw [held, deletes]
      simp

/-- The entry a check-in makes for an added type has the id 0. -/
theorem stored_id_of_added (moved : CheckedIn state view next) (member : dt ∈ collectDataTypes state view)
    (adds : dt.op = .add) : ∃ base, next.ghidraTypesByName.lookup dt.name = some base ∧ base.id = 0 := by
  obtain ⟨types, same, stored⟩ := moved.dataTypes
  obtain ⟨carried, added⟩ := ghidraId_of_collected member
  have unknown : state.ghidraTypesByName.lookup dt.name = none := added.mp adds
  have absent : types.lookup dt.name = none := by
    have both := same dt.name
    rw [unknown] at both
    simpa using both
  have unique : ∀ other ∈ collectDataTypes state view, other.name = dt.name → other = dt :=
    fun other otherMember => data_type_unique member otherMember
  have quiet : ∀ other ∈ collectDataTypes state view, other.name = dt.name →
      other.op ≠ .delete ∧ other.ghidraId = 0 := by
    intro other otherMember named
    rw [unique other otherMember named]
    refine ⟨by rw [adds]; decide, ?_⟩
    rw [carried, idOf, unknown]
    rfl
  have kept : idOf next.ghidraTypesByName dt.name = 0 := by
    rw [stored, idOf_recordDataTypes quiet, idOf, absent]
    rfl
  rcases lookup_recordDataTypes member unique with ⟨-, deletes⟩ | ⟨⟨old, found⟩, -⟩
  · rw [adds] at deletes
    cases deletes
  · rw [← stored] at found
    refine ⟨_, found, ?_⟩
    rw [idOf, found] at kept
    exact kept

end

/-- The ids of a reply are kept exactly when each type that was added has the id 0 there. -/
theorem added_ids_kept_iff {conn : GhidraConnection} {view : BinaryView} {comment : String} {resp : Json}
    (succeeded : (checkinWith conn view comment resp).1.success = true) :
    AddedIdsKept conn view comment resp ↔
      ∀ name id, SentAsAdd conn view name → MapsTo resp name id → id = 0 := by
  have moved := checkedIn_of_success succeeded
  have collected : (conn.checkinState.collectCheckinChanges view).dataTypeChanges =
      collectDataTypes conn.checkinState view := by
    rw [collectCheckinChanges_of_imported moved.imported]
  have stored {name : String} (sent : SentAsAdd conn view name) :
      ∃ base, (stateAfter conn view comment resp).ghidraTypesByName.lookup name = some base ∧ base.id = 0 := by
    obtain ⟨dt, member, adds, rfl⟩ := sent
    rw [collected] at member
    exact stored_id_of_added moved member adds
  constructor
  · intro kept name id sent maps
    obtain ⟨base, held, zero⟩ := stored sent
    obtain ⟨⟨other, found, same⟩, -⟩ := kept name id sent maps
    rw [held, Option.some.injEq] at found
    rw [← same, ← found, zero]
  · intro zero name id sent maps
    obtain rfl : id = 0 := zero name id sent maps
    obtain ⟨base, held, noId⟩ := stored sent
    refine ⟨⟨base, held, noId⟩, fun later dt member named => ?_⟩
    have imported : (stateAfter conn view comment resp).checkinItem ≠ "" := moved.sameItem ▸ moved.imported
    rw [collectCheckinChanges_of_imported imported] at member
    rw [(ghidraId_of_collected member).1, named, idOf, held]
    exact noId

/-! ## A new struct -/

/-- A struct of the user with these members, an `int` each. -/
def viewWithStruct (members : List String) : BinaryView :=
  { userTypes := Table.set ∅ "node"
      ⟨"node", .composite false (4 * members.length)
        (members.zipIdx.map fun (name, i) => ⟨.integer 4 true, name, UInt64.ofNat (4 * i)⟩)⟩ }

/-- The server takes the check-in and has this id for the struct. -/
def replyAdded (id : Int) : Json := .obj [("ok", .bool true), ("added_type_ids", .obj [("node", .int id)])]

/-- The struct is stored without the id it got, and once it has another member is sent as an
update of the type with the id 0. -/
theorem added_struct_loses_id :
    let conn := connectionWith {}
    let view := viewWithStruct ["next"]
    let after := stateAfter conn view "note" (replyAdded 77)
    (checkinWith conn view "note" (replyAdded 77)).1.success = true ∧ SentAsAdd conn view "node" ∧
      MapsTo (replyAdded 77) "node" 77 ∧
      (after.ghidraTypesByName.lookup "node").map GhidraDataType.id = some 0 ∧
      ((after.collectCheckinChanges (viewWithStruct ["next", "size"])).dataTypeChanges.map fun dt =>
        (dt.op, dt.name, dt.ghidraId)) = [(.update, "node", 0)] ∧
      ¬AddedIdsKept conn view "note" (replyAdded 77) := by
  intro conn view after
  have sent : SentAsAdd conn view "node" := by
    refine ⟨{ op := .add, kind := .struct, name := "node", size := 4, members := [⟨"next", 0, 4, "int32_t"⟩] }, ?_,
      rfl, rfl⟩
    decide +kernel
  have maps : MapsTo (replyAdded 77) "node" 77 := by
    refine ⟨.int 77, List.mem_cons_self, ?_, rfl, rfl⟩
    intro entry member _
    rw [List.mem_singleton.mp member]
  have stored : (after.ghidraTypesByName.lookup "node").map GhidraDataType.id = some 0 := by decide +kernel
  refine ⟨by decide +kernel, sent, maps, stored, by decide +kernel, fun kept => ?_⟩
  obtain ⟨⟨base, held, id⟩, -⟩ := kept "node" 77 sent maps
  have zero : base.id = 0 := by
    have entry := stored
    rw [held] at entry
    exact Option.some.inj entry
  rw [zero] at id
  cases id

theorem zero_id_kept :
    (checkinWith (connectionWith {}) (viewWithStruct ["next"]) "note" (replyAdded 0)).1.success = true ∧
      AddedIdsKept (connectionWith {}) (viewWithStruct ["next"]) "note" (replyAdded 0) := by
  have succeeded : (checkinWith (connectionWith {}) (viewWithStruct ["next"]) "note" (replyAdded 0)).1.success =
      true := by decide +kernel
  refine ⟨succeeded, (added_ids_kept_iff succeeded).mpr ?_⟩
  rintro name id - ⟨value, member, -, -, read⟩
  cases List.mem_singleton.mp member
  cases read
  rfl

end GhidraBridge.AddedTypeIds
