import GhidraBridge.CheckinRetention

/-! A second collection right after a successful check-in, over the same view. In
the categories that are compared by address, name or id it is empty, with one
exception: the references of an equate are looked up under its baseline name,
and a rename moves that name. -/
namespace GhidraBridge.Convergence
open Lib CheckinState BaselineMoves CheckinRetention

variable {state next : CheckinState} {view : BinaryView}

/-- What is collected after everything collected was checked in. -/
def collectedAgain (conn : GhidraConnection) (view : BinaryView) (comment : String)
    (send : Json → Except String Json) : GhidraCheckinPreview :=
  (conn.checkin view (conn.checkinState.collectCheckinChanges view) comment send
    ).2.checkinState.collectCheckinChanges view

/-- Nothing is left of the symbols, types, data items and equates. -/
def SymbolsTypesItemsEquatesEmpty (preview : GhidraCheckinPreview) : Prop :=
  preview.renames = [] ∧ preview.newSymbols = [] ∧ preview.dataTypeChanges = [] ∧
    preview.dataItemChanges = [] ∧ preview.equateRenames = [] ∧ preview.newEquateRefs = []

instance (preview : GhidraCheckinPreview) : Decidable (SymbolsTypesItemsEquatesEmpty preview) :=
  inferInstanceAs (Decidable (_ ∧ _))

/-- The second collection differs from an empty one only where a renamed equate
has references under its new name that the first collection did not look at. -/
theorem symbols_types_items_equates_converge_iff (conn : GhidraConnection) (view : BinaryView) (comment : String)
    (send : Json → Except String Json)
    (succeeded : (conn.checkin view (conn.checkinState.collectCheckinChanges view) comment send).1.success =
      true) :
    SymbolsTypesItemsEquatesEmpty (collectedAgain conn view comment send) ↔
      RenamedRefsKnown conn.checkinState view := by
  have moved := checkedIn_of_success succeeded
  rw [collectedAgain, moved.collected, SymbolsTypesItemsEquatesEmpty, ← equate_refs_settled_iff moved]
  refine ⟨fun empty => empty.2.2.2.2.2, fun settled => ?_⟩
  exact ⟨renames_settled moved, new_symbols_settled moved, data_types_settled moved, data_items_settled moved,
    equate_renames_settled moved, settled⟩

/-- The server takes the check-in and reports these counts as applied. -/
def replyApplied (counts : List (String × Int)) (_ : Json) : Except String Json :=
  .ok (.obj [("ok", .bool true), ("applied", .obj (counts.map fun entry => (entry.1, .int entry.2)))])

/-- One equate with the value 5, named `OLD` and shown nowhere. -/
def equateState : CheckinState :=
  { equateOriginalNameById := Table.set ∅ 1 "OLD", equateValueById := Table.set ∅ 1 5 }

/-- The type of the equate, under this type name and with this label, shown at one
instruction. -/
def equateView (typeName label : String) : BinaryView :=
  { userTypes := Table.set ∅ typeName ⟨equateTypeId 1, .enumeration 4 [⟨label, 5⟩]⟩
    typeReferences := Table.set ∅ typeName [⟨0x401000, some 0x401000⟩]
    functions := [
      { start := 0x401000
        displayTypes := Table.set ∅ (0x401000, 5, 0) (.enumeration (some (equateTypeId 1))) }] }

/-- The label is edited and the type keeps its name: one check-in sends the rename
and the reference, and nothing is left. -/
theorem relabelled_equate_converges :
    let conn := connectionWith equateState
    let view := equateView "OLD" "NEW"
    let send := replyApplied [("equate_renames", 1), ("equate_ref_adds", 1)]
    (conn.checkinState.collectCheckinChanges view).equateRenames = [⟨1, "NEW"⟩] ∧
      (conn.checkinState.collectCheckinChanges view).newEquateRefs = [⟨1, 0x401000, 0⟩] ∧
      SymbolsTypesItemsEquatesEmpty (collectedAgain conn view "note" send) := by
  have shownUnder : ((equateView "OLD" "NEW").typeReferences.lookup "NEW").getD [] = [] := by decide +kernel
  have newLabel : equateLabel (equateView "OLD" "NEW") 1 = some "NEW" := by decide +kernel
  refine ⟨by decide +kernel, by decide +kernel, ?_⟩
  refine (symbols_types_items_equates_converge_iff _ _ _ _ (by decide +kernel)).mpr ?_
  intro id name label held labelled _ addr opIndex ⟨ref, listed, _⟩
  simp only [connectionWith, equateState, Table.lookup_set, AList.lookup_empty] at held
  split at held
  · rename_i only
    rw [only, newLabel, Option.some.injEq] at labelled
    rw [← labelled, shownUnder] at listed
    cases listed
  · cases held

/-- The type is renamed with its label: the rename alone is sent, and the next
collection finds the reference under the new name. -/
theorem renamed_equate_type_leaves_reference :
    let conn := connectionWith equateState
    let view := equateView "NEW" "NEW"
    let send := replyApplied [("equate_renames", 1)]
    let attempt := conn.checkin view (conn.checkinState.collectCheckinChanges view) "note" send
    attempt.1.success = true ∧ attempt.1.warned = [] ∧
      (collectedAgain conn view "note" send).newEquateRefs = [⟨1, 0x401000, 0⟩] ∧
      ¬SymbolsTypesItemsEquatesEmpty (collectedAgain conn view "note" send) := by
  decide +kernel

end GhidraBridge.Convergence
