import GhidraBridge.Convergence

/-! Variables after a check-in of everything collected. A baseline holds one name
and one type for each key and one name for each slot, so the next collection is
empty where the variables that share a key or a slot agree, and where no variable
without a name of its own is sent last under a key whose name was sent as well. -/
namespace GhidraBridge.VariableConvergence
open Lib CheckinState BaselineMoves CheckinRetention Convergence

variable {state next : CheckinState} {view : BinaryView}

/-! ## New variables -/

theorem newParams_settled_iff_baseline (moved : CheckedIn state view next) :
    collectNewParams next view = [] ↔
      ∀ p ∈ newVariables state view,
        (((collectNewParams state view).reverse.find? (sameSlot p)).map NewParam.name).or
          (slotBaseline (rebase state view) ⟨state.newParamBaseline, state.newRegLocalBaseline⟩ p) =
            some p.name := by
  unfold collectNewParams
  rw [List.filter_eq_nil_iff, newVariables_after moved]
  refine forall₂_congr fun p _ => ?_
  rw [atNewBaseline_after moved, moved.newParams, slotBaseline_foldl, Bool.not_eq_true, Bool.not_eq_false',
    decide_eq_true_eq]
  rfl

/-- New variables of one slot have one name. -/
def SlotsAgree (state : CheckinState) (view : BinaryView) : Prop :=
  ∀ p ∈ newVariables state view, ∀ q ∈ newVariables state view, sameSlot p q = true → q.name = p.name

private theorem sameSlot_self (p : NewParam) : sameSlot p p = true := by simp [sameSlot]

private theorem sameSlot_congr {p q : NewParam} (same : sameSlot p q = true) : sameSlot q = sameSlot p := by
  funext other
  simp only [sameSlot, Bool.and_eq_true, decide_eq_true_eq] at same
  simp only [sameSlot, same.1.1, same.1.2, same.2]

private theorem slotBaseline_congr {rebase : UInt64} {base : NewParamBaselines} {p q : NewParam}
    (same : sameSlot p q = true) : slotBaseline rebase base q = slotBaseline rebase base p := by
  simp only [sameSlot, Bool.and_eq_true, decide_eq_true_eq] at same
  simp only [slotBaseline, same.1.1, same.1.2, same.2]

theorem newParams_settled_iff (moved : CheckedIn state view next) :
    collectNewParams next view = [] ↔ SlotsAgree state view := by
  rw [newParams_settled_iff_baseline moved]
  constructor
  · intro settled p listed q otherListed same
    have first := settled p listed
    have second := settled q otherListed
    rw [sameSlot_congr same, slotBaseline_congr same, first, Option.some.injEq] at second
    exact second.symm
  · intro agree p listed
    cases found : (collectNewParams state view).reverse.find? (sameSlot p) with
    | some q =>
      have sent := List.mem_reverse.mp (List.mem_of_find?_eq_some found)
      have same := List.find?_some found
      rw [Option.map_some, Option.some_or, agree p listed q (List.mem_of_mem_filter sent) same]
    | none =>
      have unsent : p ∉ collectNewParams state view := by
        intro sent
        exact List.find?_eq_none.mp found p (List.mem_reverse.mpr sent) (sameSlot_self p)
      have held : atNewBaseline state view p = true := by
        by_contra moved
        exact unsent (List.mem_filter.mpr ⟨listed, by simpa using moved⟩)
      rw [Option.map_none, Option.none_or]
      exact of_decide_eq_true held

/-! ## Known variables -/

def nameOf (slot : KeyedVar) : String := slot.func.getVariableName slot.var

def typeOf (view : BinaryView) (slot : KeyedVar) : String := typeText view (slot.func.getVariableType slot.var)

/-- The variable has a name somebody chose. -/
def Named (slot : KeyedVar) : Prop := nameOf slot ≠ "" ∧ slot.isAutoGen = false

def Renamed (state : CheckinState) (slot : KeyedVar) : Prop :=
  Named slot ∧ nameOf slot ≠ textAt state.paramOriginalNameByKey slot.key

def Retyped (state : CheckinState) (view : BinaryView) (slot : KeyedVar) : Prop :=
  typeOf view slot ≠ "" ∧
    canonicalTypeName (typeOf view slot) ≠ canonicalTypeName (textAt state.paramOriginalTypeByKey slot.key)

/-- What is sent for a variable. -/
structure SentAs (state : CheckinState) (view : BinaryView) (slot : KeyedVar) (r : ParamRename) : Prop where
  changed : Renamed state slot ∨ Retyped state view slot
  key : r.key = slot.key
  renamed : Renamed state slot → r.name = nameOf slot
  unrenamed : ¬Renamed state slot → r.name = textAt state.paramOriginalNameByKey slot.key
  retyped : Retyped state view slot → r.typeName = typeOf view slot
  unretyped : ¬Retyped state view slot → r.typeName = ""

private theorem renamed_iff {slot : KeyedVar} :
    Renamed state slot ↔ slot.func.getVariableName slot.var ≠ "" ∧
      slot.func.getVariableName slot.var ≠ textAt state.paramOriginalNameByKey slot.key ∧
        slot.isAutoGen = false := by
  rw [Renamed, Named, and_assoc, and_comm (a := slot.isAutoGen = false)]
  rfl

theorem checkVar_cases (state : CheckinState) (view : BinaryView) (slot : KeyedVar) :
    (checkVar state view slot = none ∧ ¬Renamed state slot ∧ ¬Retyped state view slot) ∨
      ∃ r, checkVar state view slot = some r ∧ SentAs state view slot r := by
  rw [checkVar]
  split
  · rename_i changed
    rw [← renamed_iff] at changed
    refine .inr ⟨_, rfl, changed, rfl, ?_, ?_, ?_, ?_⟩
    · exact fun renamed => if_pos (renamed_iff.mp renamed)
    · exact fun unrenamed => if_neg (mt renamed_iff.mpr unrenamed)
    · exact fun retyped => if_pos retyped
    · exact fun unretyped => if_neg unretyped
  · rename_i unchanged
    rw [← renamed_iff] at unchanged
    exact .inl ⟨rfl, not_or.mp unchanged⟩

theorem sentAs_of_checkVar {slot : KeyedVar} {r : ParamRename} (made : checkVar state view slot = some r) :
    SentAs state view slot r := by
  rcases checkVar_cases state view slot with ⟨none, _⟩ | ⟨r', some, sent⟩
  · rw [none] at made
    cases made
  · rw [some, Option.some.injEq] at made
    exact made ▸ sent

theorem exists_checkVar {slot : KeyedVar} (changed : Renamed state slot ∨ Retyped state view slot) :
    ∃ r, checkVar state view slot = some r := by
  rcases checkVar_cases state view slot with ⟨_, unchanged⟩ | ⟨r, some, _⟩
  · exact absurd changed (not_or.mpr unchanged)
  · exact ⟨r, some⟩

theorem diffVar_eq_none {name typeName : String} {slot : KeyedVar} :
    diffVar view name typeName slot = none ↔
      (Named slot → nameOf slot = name) ∧
        (typeOf view slot ≠ "" → canonicalTypeName (typeOf view slot) = canonicalTypeName typeName) := by
  rw [diffVar]
  simp only [ite_eq_right_iff, reduceCtorEq, imp_false, not_or, not_and, not_not, Named]
  refine and_congr ⟨?_, ?_⟩ Iff.rfl
  · intro settled chosen
    by_contra differs
    have auto := settled chosen.1 differs
    exact auto chosen.2
  · intro settled nonempty differs chosen
    exact differs (settled ⟨nonempty, chosen⟩)

/-! ## The last variable sent under a key -/

section Queued
variable (state view)

/-- The type recorded for a key is that of a variable sent with it, or the old one. -/
theorem queuedType_cases (key : Int64) :
    (∃ slot ∈ keyedVars state view, slot.key = key ∧ Retyped state view slot ∧
      queuedType state view key = typeOf view slot) ∨
    ((∀ slot ∈ keyedVars state view, slot.key = key → ¬Retyped state view slot) ∧
      queuedType state view key = textAt state.paramOriginalTypeByKey key) := by
  unfold queuedType
  cases found : (((collectParamRenames state view).filter fun r => r.typeName ≠ "").reverse.find? fun r =>
      r.key = key) with
  | some r =>
    have member := List.mem_reverse.mp (List.mem_of_find?_eq_some found)
    obtain ⟨queued, typed⟩ := List.mem_filter.mp member
    obtain ⟨slot, listed, made⟩ := List.mem_filterMap.mp queued
    have sent := sentAs_of_checkVar made
    have sameKey : r.key = key := by simpa using List.find?_some found
    have retyped : Retyped state view slot := by
      by_contra unretyped
      simp [sent.unretyped unretyped] at typed
    exact .inl ⟨slot, listed, sent.key.symm.trans sameKey, retyped, sent.retyped retyped⟩
  | none =>
    refine .inr ⟨?_, rfl⟩
    intro slot listed sameKey retyped
    obtain ⟨r, made⟩ := exists_checkVar (.inr retyped)
    have sent := sentAs_of_checkVar made
    have member : r ∈ (collectParamRenames state view).filter fun r => r.typeName ≠ "" := by
      refine List.mem_filter.mpr ⟨List.mem_filterMap.mpr ⟨slot, listed, made⟩, ?_⟩
      rw [sent.retyped retyped]
      simpa using retyped.1
    have unmatched := List.find?_eq_none.mp found r (List.mem_reverse.mpr member)
    simp [sent.key, sameKey] at unmatched

/-- The name recorded for a key is that of the last entry sent under it. -/
theorem queuedName_cases (key : Int64) :
    (∃ before slot after r, keyedVars state view = before ++ slot :: after ∧ slot.key = key ∧
      checkVar state view slot = some r ∧ queuedName state view key = r.name ∧
      ∀ later ∈ after, later.key = key → checkVar state view later = none) ∨
    ((∀ slot ∈ keyedVars state view, slot.key = key → checkVar state view slot = none) ∧
      queuedName state view key = textAt state.paramOriginalNameByKey key) := by
  have sentUnder {slot : KeyedVar} : ((checkVar state view slot).any fun r => r.key = key) = true ↔
      slot.key = key ∧ checkVar state view slot ≠ none := by
    cases made : checkVar state view slot with
    | none => simp
    | some r => simp [(sentAs_of_checkVar made).key]
  unfold queuedName collectParamRenames
  rw [← List.filterMap_reverse, List.find?_filterMap]
  cases found : (keyedVars state view).reverse.find? fun slot =>
      (checkVar state view slot).any fun r => r.key = key with
  | some slot =>
    obtain ⟨hit, after, before, split, passed⟩ := List.find?_eq_some_iff_append.mp found
    obtain ⟨sameKey, made⟩ := sentUnder.mp hit
    obtain ⟨r, made⟩ := Option.ne_none_iff_exists'.mp made
    refine .inl ⟨before.reverse, slot, after.reverse, r, ?_, sameKey, made, ?_, ?_⟩
    · rw [← List.reverse_reverse (keyedVars state view), split]
      simp
    · simp [made]
    · intro later member laterKey
      by_contra sent
      have missed := passed later (List.mem_reverse.mp member)
      rw [sentUnder.mpr ⟨laterKey, sent⟩] at missed
      cases missed
  | none =>
    refine .inr ⟨?_, rfl⟩
    intro slot listed sameKey
    by_contra sent
    exact List.find?_eq_none.mp found slot (List.mem_reverse.mpr listed) (sentUnder.mpr ⟨sameKey, sent⟩)

end Queued

/-- Variables of one key have one name and one type, and where the name was sent it
is not followed by a type sent under the old name. -/
structure KeysAgree (state : CheckinState) (view : BinaryView) : Prop where
  names : ∀ slot ∈ keyedVars state view, ∀ other ∈ keyedVars state view, other.key = slot.key →
    Named slot → Named other → nameOf other = nameOf slot
  types : ∀ slot ∈ keyedVars state view, ∀ other ∈ keyedVars state view, other.key = slot.key →
    typeOf view slot ≠ "" → typeOf view other ≠ "" →
      canonicalTypeName (typeOf view other) = canonicalTypeName (typeOf view slot)
  order : ∀ before slot after, keyedVars state view = before ++ slot :: after →
    ¬Named slot → Retyped state view slot → (∃ earlier ∈ before, earlier.key = slot.key ∧ Renamed state earlier) →
      ∃ later ∈ after, later.key = slot.key ∧ Named later

theorem paramRenames_settled_iff_queued (moved : CheckedIn state view next) :
    collectParamRenames next view = [] ↔
      ∀ slot ∈ keyedVars state view,
        (Named slot → nameOf slot = queuedName state view slot.key) ∧
          (typeOf view slot ≠ "" →
            canonicalTypeName (typeOf view slot) = canonicalTypeName (queuedType state view slot.key)) := by
  rw [List.eq_nil_iff_forall_not_mem]
  simp only [rename_found_again_iff moved, RenameFoundAgain, ← diffVar_eq_none]
  constructor
  · intro settled slot listed
    by_contra sent
    obtain ⟨r, made⟩ := Option.ne_none_iff_exists'.mp sent
    exact settled r ⟨slot, listed, made⟩
  · rintro settled r ⟨slot, listed, made⟩
    rw [settled slot listed] at made
    cases made

/-- The type that settles a variable settles every other one of its key. -/
private theorem types_settled_iff :
    (∀ slot ∈ keyedVars state view, typeOf view slot ≠ "" →
      canonicalTypeName (typeOf view slot) = canonicalTypeName (queuedType state view slot.key)) ↔
    ∀ slot ∈ keyedVars state view, ∀ other ∈ keyedVars state view, other.key = slot.key →
      typeOf view slot ≠ "" → typeOf view other ≠ "" →
        canonicalTypeName (typeOf view other) = canonicalTypeName (typeOf view slot) := by
  constructor
  · intro settled slot listed other otherListed sameKey typed otherTyped
    rw [settled slot listed typed, settled other otherListed otherTyped, sameKey]
  · intro agree slot listed typed
    rcases queuedType_cases state view slot.key with ⟨last, lastListed, sameKey, retyped, queued⟩ | ⟨kept, queued⟩
    · rw [queued, agree slot listed last lastListed sameKey typed retyped.1]
    · rw [queued]
      by_contra differs
      exact kept slot listed rfl ⟨typed, differs⟩

private theorem names_agree_of_settled
    (settled : ∀ slot ∈ keyedVars state view, Named slot → nameOf slot = queuedName state view slot.key) :
    ∀ slot ∈ keyedVars state view, ∀ other ∈ keyedVars state view, other.key = slot.key →
      Named slot → Named other → nameOf other = nameOf slot := by
  intro slot listed other otherListed sameKey named otherNamed
  rw [settled slot listed named, settled other otherListed otherNamed, sameKey]

/-- The last entry of the key carries the new name, so it is that of a named
variable after the one without a name. -/
private theorem order_of_settled
    (settled : ∀ slot ∈ keyedVars state view, Named slot → nameOf slot = queuedName state view slot.key)
    {before after : List KeyedVar} {slot : KeyedVar} (split : keyedVars state view = before ++ slot :: after)
    (unnamed : ¬Named slot) (retyped : Retyped state view slot)
    (earlierRenamed : ∃ earlier ∈ before, earlier.key = slot.key ∧ Renamed state earlier) :
    ∃ later ∈ after, later.key = slot.key ∧ Named later := by
  obtain ⟨earlier, earlierMember, earlierKey, renamed⟩ := earlierRenamed
  obtain ⟨sentSlot, madeSlot⟩ := exists_checkVar (.inr retyped)
  have earlierListed : earlier ∈ keyedVars state view := by
    rw [split]
    exact List.mem_append_left _ earlierMember
  have slotListed : slot ∈ keyedVars state view := by
    rw [split]
    simp
  rcases queuedName_cases state view slot.key with
    ⟨front, last, back, r, lastSplit, lastKey, made, queued, lastOne⟩ | ⟨unsent, _⟩
  · have sent := sentAs_of_checkVar made
    have carriesName : r.name = nameOf earlier := by
      rw [settled earlier earlierListed renamed.1, earlierKey, queued]
    have lastNamed : Named last := by
      by_contra lastUnnamed
      have oldName := sent.unrenamed fun lastRenamed => lastUnnamed lastRenamed.1
      rw [carriesName, lastKey, ← earlierKey] at oldName
      exact renamed.2 oldName
    -- The last entry stands behind the unnamed variable, which was sent as well.
    rw [split] at lastSplit
    rcases List.append_eq_append_iff.mp lastSplit with ⟨middle, _, rest⟩ | ⟨middle, _, rest⟩
    · cases middle with
      | nil =>
        obtain ⟨rfl, _⟩ := List.cons.inj rest
        exact absurd lastNamed unnamed
      | cons first middle =>
        obtain ⟨_, rfl⟩ := List.cons.inj rest
        exact ⟨last, by simp, lastKey, lastNamed⟩
    · cases middle with
      | nil =>
        obtain ⟨rfl, _⟩ := List.cons.inj rest
        exact absurd lastNamed unnamed
      | cons first middle =>
        obtain ⟨_, rfl⟩ := List.cons.inj rest
        rw [lastOne slot (by simp) rfl] at madeSlot
        cases madeSlot
  · rw [unsent slot slotListed rfl] at madeSlot
    cases madeSlot

private theorem names_settled_of_agree (agree : KeysAgree state view) {slot : KeyedVar}
    (listed : slot ∈ keyedVars state view) (named : Named slot) :
    nameOf slot = queuedName state view slot.key := by
  rcases queuedName_cases state view slot.key with
    ⟨before, last, after, r, split, lastKey, made, queued, lastOne⟩ | ⟨unsent, queued⟩
  · have sent := sentAs_of_checkVar made
    have lastListed : last ∈ keyedVars state view := by
      rw [split]
      simp
    rw [queued]
    by_cases lastNamed : Named last
    · have sameName := agree.names slot listed last lastListed lastKey named lastNamed
      by_cases renamed : Renamed state last
      · rw [sent.renamed renamed, sameName]
      · have oldName : nameOf last = textAt state.paramOriginalNameByKey last.key := by
          by_contra differs
          exact renamed ⟨lastNamed, differs⟩
        rw [sent.unrenamed renamed, ← oldName, sameName]
    · have unrenamed : ¬Renamed state last := fun renamed => lastNamed renamed.1
      rw [sent.unrenamed unrenamed, lastKey]
      by_contra differs
      have renamed : Renamed state slot := ⟨named, differs⟩
      have notAfter : ∀ later ∈ after, later.key = slot.key → ¬Renamed state later := by
        intro later member sameKey laterRenamed
        obtain ⟨_, laterMade⟩ := @exists_checkVar state view later (.inl laterRenamed)
        rw [lastOne later member sameKey] at laterMade
        cases laterMade
      -- The variable was sent, so it stands before the last one of its key.
      have slotBefore : slot ∈ before := by
        rw [split, List.mem_append, List.mem_cons] at listed
        rcases listed with here | rfl | later
        · exact here
        · exact absurd named lastNamed
        · exact absurd renamed (notAfter slot later rfl)
      obtain ⟨later, member, laterKey, laterNamed⟩ := agree.order before last after split lastNamed
        (sent.changed.resolve_left unrenamed) ⟨slot, slotBefore, lastKey.symm, renamed⟩
      have laterListed : later ∈ keyedVars state view := by
        rw [split]
        simp [member]
      rw [lastKey] at laterKey
      have sameName := agree.names slot listed later laterListed laterKey named laterNamed
      refine notAfter later member laterKey ⟨laterNamed, ?_⟩
      rw [sameName, laterKey]
      exact differs
  · rw [queued]
    by_contra differs
    obtain ⟨_, made⟩ := @exists_checkVar state view slot (.inl ⟨named, differs⟩)
    rw [unsent slot listed rfl] at made
    cases made

theorem paramRenames_settled_iff (moved : CheckedIn state view next) :
    collectParamRenames next view = [] ↔ KeysAgree state view := by
  rw [paramRenames_settled_iff_queued moved]
  constructor
  · intro settled
    have names : ∀ slot ∈ keyedVars state view, Named slot → nameOf slot = queuedName state view slot.key :=
      fun slot listed => (settled slot listed).1
    exact
      { names := names_agree_of_settled names
        types := types_settled_iff.mp fun slot listed => (settled slot listed).2
        order := fun _ _ _ split unnamed retyped renamed => order_of_settled names split unnamed retyped renamed }
  · intro agree slot listed
    exact ⟨fun named => names_settled_of_agree agree listed named,
      fun typed => types_settled_iff.mpr agree.types slot listed typed⟩

/-- The variables are settled exactly when those that share a key or a slot agree. -/
theorem variables_converge_iff (conn : GhidraConnection) (view : BinaryView) (comment : String)
    (send : Json → Except String Json)
    (succeeded : (conn.checkin view (conn.checkinState.collectCheckinChanges view) comment send).1.success =
      true) :
    (collectedAgain conn view comment send).paramRenames = [] ∧
        (collectedAgain conn view comment send).newParams = [] ↔
      KeysAgree conn.checkinState view ∧ SlotsAgree conn.checkinState view := by
  have moved := checkedIn_of_success succeeded
  rw [collectedAgain, moved.collected]
  exact and_congr (paramRenames_settled_iff moved) (newParams_settled_iff moved)

/-- A function with a parameter and these register locals, all in one register. -/
def functionWithLocals (locals : List String) : BinaryView :=
  let param : Variable := { type := .register, storage := 55 }
  let inRegister (i : Nat) : Variable := { type := .register, index := UInt32.ofNat i, storage := 16 }
  { functions := [
      { start := 0x401000
        parameterVariables := [param]
        vars := (Table.set ∅ param ⟨"size", some (.integer 8 false)⟩).writeAll (fun entry => inRegister entry.2)
          (fun entry => ⟨entry.1, none⟩) locals.zipIdx }] }

/-- The parameter was recorded under another name and type. -/
def paramState : CheckinState :=
  { paramKeyByAddrOrdinal := Table.setNested ∅ 0x401000 0 7
    paramOriginalNameByKey := Table.set ∅ 7 "param_1"
    paramOriginalTypeByKey := Table.set ∅ 7 "int" }

/-- A renamed and retyped parameter and a new local are sent once. -/
theorem renamed_parameter_converges :
    let conn := connectionWith paramState
    let view := functionWithLocals ["count"]
    let preview := conn.checkinState.collectCheckinChanges view
    let send := replyApplied [("params", 2)]
    preview.paramRenames = [⟨7, "size", "uint64_t"⟩] ∧ preview.newParams = [⟨0x401000, 16, "count", "", true⟩] ∧
      (collectedAgain conn view "note" send).paramRenames = [] ∧
      (collectedAgain conn view "note" send).newParams = [] := by
  have one : (keyedVars (connectionWith paramState).checkinState (functionWithLocals ["count"])).length = 1 := by
    decide +kernel
  obtain ⟨slot, only⟩ := List.length_eq_one_iff.mp one
  have new : newVariables (connectionWith paramState).checkinState (functionWithLocals ["count"]) =
      [⟨0x401000, 16, "count", "", true⟩] := by decide +kernel
  refine ⟨by decide +kernel, by decide +kernel, ?_⟩
  refine (variables_converge_iff _ _ _ _ (by decide +kernel)).mpr ⟨⟨?_, ?_, ?_⟩, ?_⟩
  · intro slot listed other otherListed _ _ _
    rw [only, List.mem_singleton] at listed otherListed
    rw [listed, otherListed]
  · intro slot listed other otherListed _ _ _
    rw [only, List.mem_singleton] at listed otherListed
    rw [listed, otherListed]
  · intro before unnamed after split _ _ ⟨earlier, member, _⟩
    rw [only, eq_comm, List.append_eq_singleton_iff] at split
    rcases split with ⟨rfl, _⟩ | ⟨_, empty⟩
    · cases member
    · cases empty
  · intro p listed q otherListed _
    rw [new, List.mem_singleton] at listed otherListed
    rw [listed, otherListed]

/-- Two named locals in one register share a baseline, so one of them is sent at
every check-in. -/
theorem locals_of_one_register_sent_again :
    let conn := connectionWith paramState
    let view := functionWithLocals ["count", "total"]
    let send := replyApplied [("params", 3)]
    let attempt := conn.checkin view (conn.checkinState.collectCheckinChanges view) "note" send
    attempt.1.success = true ∧ attempt.1.warned = [] ∧ (collectedAgain conn view "note" send).paramRenames = [] ∧
      (collectedAgain conn view "note" send).newParams = [⟨0x401000, 16, "total", "", true⟩] := by
  decide +kernel

end GhidraBridge.VariableConvergence
