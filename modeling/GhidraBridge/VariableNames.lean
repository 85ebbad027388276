import GhidraBridge.VariableBaseline

/-! The names somebody chose for parameters and stack variables. Both the check-in and
the next import take a name for the analysis's own by how it starts, so a chosen name that
starts that way is not sent and does not survive an import. -/
namespace GhidraBridge.VariableNames
open Lib Lib.Scan CheckinState SyncEngine FunctionPasses VariableSettling VariableConvergence VariableBaseline

/-! ## Default spellings -/

def spelledAs (start : String) (number : List Char → Bool) (name : String) : Bool :=
  startsWith name start && number (name.toList.drop start.toList.length)

def isDecimal (text : List Char) : Bool := text ≠ [] && text.all Char.isDigit

/-- Hex digits, then `_` and a count where the offset has more than one variable. -/
def isCountedHex (text : List Char) : Bool :=
  hexSuffix text 0 1 ||
    match splitLast '_' text with
    | none => false
    | some (before, after) => hexSuffix before 0 1 && isDecimal after

/-- What Binary Ninja and Ghidra call a variable nobody named. -/
def isDefaultSpelling (name : String) : Bool :=
  spelledAs "arg" isDecimal name || spelledAs "arg_" (fun text => hexSuffix text 0 1) name ||
    spelledAs "param_" isDecimal name || spelledAs "var_" isCountedHex name || spelledAs "local_" isCountedHex name

structure Chosen (name : String) : Prop where
  given : name ≠ ""
  own : isDefaultSpelling name = false

/-! ## The check-in -/

section CheckIn
variable (state : CheckinState) (view : BinaryView) (func : BNFunction) (slot : Slot)

/-- The key Ghidra has for a slot. -/
def keyOf : Option Int64 :=
  (if slot.isParam then state.paramKeyByAddrOrdinal else state.localKeyByAddrOffset).lookupNested
    (func.start - rebase state view) slot.ordinal

/-- What `checkVar` is called with for a slot with a key. -/
def keyed (key : Int64) : KeyedVar :=
  ⟨func, slot.var, key, looksMadeUp slot.isParam (func.getVariableName slot.var)⟩

/-- The name of the slot is not the one on record: Ghidra's, or that of the last check-in for
a parameter Ghidra has no key for. -/
def Differs : Prop :=
  match keyOf state view func slot with
  | some key => func.getVariableName slot.var ≠ textAt state.paramOriginalNameByKey key
  | none => slot.isParam = true ∧
    state.newParamBaseline.lookupNested (func.start - rebase state view) slot.ordinal ≠
      some (func.getVariableName slot.var)

/-- The preview has the name of the slot: in the entry made for its key, or as a new
parameter. -/
def Reported : Prop :=
  match keyOf state view func slot with
  | some key => ∃ r ∈ (collectCheckinChanges state view).paramRenames,
    checkVar state view (keyed func slot key) = some r ∧ r.name = func.getVariableName slot.var
  | none => ∃ p ∈ (collectCheckinChanges state view).newParams,
    p.funcAddr = func.start ∧ p.ordinal = slot.ordinal ∧ p.name = func.getVariableName slot.var ∧ p.isLocal = false

variable {state view func slot}

private theorem mem_keyedVars {key : Int64} (member : func ∈ view.functions)
    (listed : slot ∈ slotsOf func.parameterVariables func.vars.keys) (known : keyOf state view func slot = some key) :
    keyed func slot key ∈ keyedVars state view := by
  refine List.mem_flatMap.mpr ⟨func, member, ?_⟩
  rw [keyedVarsOf_eq]
  refine List.mem_filterMap.mpr ⟨slot, listed, ?_⟩
  rw [keyOf] at known
  rw [known]
  rfl

private theorem exists_index (listed : slot ∈ slotsOf func.parameterVariables func.vars.keys)
    (isParam : slot.isParam = true) :
    ∃ i, (slot.var, i) ∈ func.parameterVariables.zipIdx ∧ slot.ordinal = Int32.ofNat i := by
  rcases List.mem_append.mp listed with parameter | stack
  · obtain ⟨⟨var, i⟩, member, rfl⟩ := List.mem_map.mp parameter
    exact ⟨i, member, rfl⟩
  · obtain ⟨var, -, rfl⟩ := List.mem_map.mp stack
    cases isParam

/-- An entry for a key has the name of the variable when the name differs from Ghidra's and
does not look made up. -/
theorem renamed_entry_iff {key : Int64} (given : func.getVariableName slot.var ≠ "")
    (differs : func.getVariableName slot.var ≠ textAt state.paramOriginalNameByKey key) :
    (∃ r, checkVar state view (keyed func slot key) = some r ∧ r.name = func.getVariableName slot.var) ↔
      looksMadeUp slot.isParam (func.getVariableName slot.var) = false := by
  constructor
  · rintro ⟨r, made, name⟩
    by_contra auto
    have unrenamed : ¬Renamed state (keyed func slot key) := fun renamed => auto renamed.1.2
    exact differs (name.symm.trans ((sentAs_of_checkVar made).unrenamed unrenamed))
  · intro chosen
    have renamed : Renamed state (keyed func slot key) := ⟨⟨given, chosen⟩, differs⟩
    obtain ⟨r, made⟩ := @exists_checkVar state view (keyed func slot key) (.inl renamed)
    exact ⟨r, made, (sentAs_of_checkVar made).renamed renamed⟩

theorem new_parameter_iff (member : func ∈ view.functions)
    (listed : slot ∈ slotsOf func.parameterVariables func.vars.keys) (isParam : slot.isParam = true)
    (unknown : keyOf state view func slot = none)
    (differs : state.newParamBaseline.lookupNested (func.start - rebase state view) slot.ordinal ≠
      some (func.getVariableName slot.var)) :
    (∃ p ∈ collectNewParams state view, p.funcAddr = func.start ∧ p.ordinal = slot.ordinal ∧
        p.name = func.getVariableName slot.var ∧ p.isLocal = false) ↔
      isAutoGenParam (func.getVariableName slot.var) = false := by
  constructor
  · rintro ⟨p, sent, -, -, name, parameter⟩
    obtain ⟨source, -⟩ := List.mem_filter.mp sent
    rcases List.mem_append.mp source with new | register
    · obtain ⟨other, -, made⟩ := List.mem_flatMap.mp new
      obtain ⟨⟨var, i⟩, -, made⟩ := List.mem_filterMap.mp made
      dsimp only at made
      rw [newParamOf] at made
      split at made
      · cases made
      · rename_i chosen
        cases made
        rw [← name]
        simpa using (not_or.mp chosen).2
    · obtain ⟨other, -, made⟩ := List.mem_flatMap.mp register
      obtain ⟨⟨var, nat⟩, -, made⟩ := List.mem_filterMap.mp made
      dsimp only at made
      rw [newRegLocalOf] at made
      split at made
      · cases made
      · cases made
        cases parameter
  · intro chosen
    obtain ⟨i, position, ordinal⟩ := exists_index listed isParam
    rw [keyOf, if_pos isParam, ordinal] at unknown
    have made : newParamOf state view func slot.var i =
        some ⟨func.start, Int32.ofNat i, func.getVariableName slot.var,
          typeText view (func.getVariableType slot.var), false⟩ := by
      rw [newParamOf, if_neg]
      simp [unknown, chosen]
    refine ⟨_, List.mem_filter.mpr ⟨List.mem_append_left _ (List.mem_flatMap.mpr ⟨func, member,
      List.mem_filterMap.mpr ⟨(slot.var, i), position, made⟩⟩), ?_⟩, rfl, ordinal.symm, rfl, rfl⟩
    simp only [atNewBaseline, Bool.false_eq_true, if_false, ← ordinal, differs, decide_false, Bool.not_false]

theorem reported_iff (member : func ∈ view.functions)
    (listed : slot ∈ slotsOf func.parameterVariables func.vars.keys) (given : func.getVariableName slot.var ≠ "")
    (differs : Differs state view func slot) :
    Reported state view func slot ↔
      state.checkinItem ≠ "" ∧ looksMadeUp slot.isParam (func.getVariableName slot.var) = false := by
  by_cases missing : state.checkinItem = ""
  · unfold Reported
    rw [collectCheckinChanges, if_pos missing]
    split <;> simp [missing]
  unfold Reported
  unfold Differs at differs
  simp only [collectCheckinChanges, if_neg missing]
  rw [and_iff_right missing]
  cases known : keyOf state view func slot with
  | some key =>
    rw [known] at differs
    dsimp only at differs ⊢
    rw [← renamed_entry_iff given differs]
    constructor
    · rintro ⟨r, -, made, name⟩
      exact ⟨r, made, name⟩
    · rintro ⟨r, made, name⟩
      exact ⟨r, List.mem_filterMap.mpr ⟨_, mem_keyedVars member listed known, made⟩, made, name⟩
  | none =>
    rw [known] at differs
    dsimp only at differs ⊢
    rw [new_parameter_iff member listed differs.1 known differs.2, looksMadeUp, if_pos differs.1]

end CheckIn

/-! ## The import -/

section Import
variable {view : BinaryView} {func : BNFunction} {var : Variable} {i : Nat}

/-- A record of the kind can be aimed at the variable: it is one of the parameters, or the
first stack variable listed at its offset. -/
def Reaches (func : BNFunction) (isParam : Bool) (var : Variable) : Prop :=
  ∃ ordinal, aimedAt func.parameterVariables func.vars.keys { isParam, ordinal } = some var

/-- No function before this one starts where it does. -/
def Leading (view : BinaryView) (i : Nat) (func : BNFunction) : Prop :=
  func.start ∉ (view.functions.take i).map BNFunction.start

instance : Decidable (Leading view i func) := inferInstanceAs (Decidable (_ ∉ _))

/-- The variable of the `i`-th function has the same name after any import. -/
def NameKept (view : BinaryView) (i : Nat) (func : BNFunction) (var : Variable) : Prop :=
  ∀ data, ∃ later, (applyToView view data).1.functions[i]? = some later ∧
    later.getVariableName var = func.getVariableName var

/-- A variable put in front takes no offset from one behind it that is aimed at. -/
private theorem aimedAt_of_listing {parameters listed : List Variable} {first param : GhidraParameter}
    (there : var ∈ listed) (aimed : aimedAt parameters (listing parameters listed first) param = some var) :
    aimedAt parameters listed param = some var := by
  unfold listing at aimed
  split at aimed
  · rename_i new found
    split at aimed
    · exact aimed
    · rename_i absent
      rw [aimedAt] at aimed ⊢
      split
      · rename_i isParam
        rw [if_pos isParam] at aimed
        exact aimed
      · rename_i isLocal
        rw [if_neg isLocal, List.find?_cons] at aimed
        split at aimed
        · cases aimed
          exact absurd there absent
        · exact aimed
  · exact aimed

/-- The records for a listed variable are aimed at it from the start. -/
private theorem aimedAt_of_mem_recordsFor {parameters listed : List Variable} {records : List GhidraParameter}
    {param : GhidraParameter} (there : var ∈ listed) (member : param ∈ recordsFor parameters var listed records) :
    aimedAt parameters listed param = some var := by
  induction records generalizing listed with
  | nil => cases member
  | cons first rest ih =>
    rw [recordsFor] at member
    have later (found : param ∈ recordsFor parameters var (listing parameters listed first) rest) :=
      aimedAt_of_listing there (ih (mem_listing there first) found)
    split at member
    · rename_i here
      rcases List.mem_cons.mp member with rfl | found
      · exact here
      · exact later found
    · exact later member

private theorem mem_keys_of_named (given : func.getVariableName var ≠ "") : var ∈ func.vars.keys := by
  by_contra absent
  have unnamed : func.vars.lookup var = none := AList.lookup_eq_none.mpr fun held => absent (AList.mem_keys.mp held)
  rw [BNFunction.getVariableName, unnamed] at given
  exact given rfl

/-- The import keeps the functions in their places, and appends those it creates. -/
theorem afterSymbols_functions_append (view : BinaryView) (data : GhidraDbExport) :
    ∃ created, (afterSymbols view data).view.functions = view.functions ++ created := by
  have run (symbols : List GhidraSymbol) (s : ImportState) :
      ∃ created, (symbols.foldl (applySymbol (rebaseOf view data)) s).view.functions =
        s.view.functions ++ created := by
    induction symbols generalizing s with
    | nil => exact ⟨[], (List.append_nil _).symm⟩
    | cons sym rest ih =>
      obtain ⟨created, later⟩ := ih (applySymbol (rebaseOf view data) s sym)
      rw [List.foldl_cons, later, WritebackMaps.applySymbol_functions, WritebackMaps.createMissing]
      split
      · exact ⟨_, List.append_assoc ..⟩
      · exact ⟨created, rfl⟩
  obtain ⟨created, whole⟩ := run data.symbols (afterBlocks view data)
  rw [afterBlocks_functions] at whole
  exact ⟨created, whole⟩

/-- The name a variable has after the import: that of the last record that went through. -/
theorem imported_name (found : view.functions[i]? = some func) (data : GhidraDbExport) :
    ∃ lead later, (lead = true ↔ Leading view i func) ∧ (applyToView view data).1.functions[i]? = some later ∧
      later.getVariableName var =
        ((speakers func (parametersOf (rebaseOf view data) data lead func.start) var).getLast?.map
          GhidraParameter.name).getD (func.getVariableName var) := by
  obtain ⟨created, functions⟩ := afterSymbols_functions_append view data
  have inside : i < view.functions.length := (List.getElem?_eq_some_iff.mp found).1
  have place : (afterSymbols view data).view.functions[i]? = some func := by
    rw [functions, List.getElem?_append_left inside, found]
  have before : (afterSymbols view data).view.functions.take i = view.functions.take i := by
    rw [functions, List.take_append_of_le_length (Nat.le_of_lt inside)]
  let lead := decide (Leading view i func)
  refine ⟨lead, passed (rebaseOf view data) (Reimport.functionKeys (rebaseOf view data) data.symbols) data
    (withEquates data view) (withTypes data view) lead func, by simp [lead], ?_, ?_⟩
  · rw [Reimport.applyToView_functions_eq, Leads.each, List.getElem?_map, Leads.getElem?_leads, place, before]
    rw [Option.map_some, Option.map_some]
    simp only [List.not_mem_nil, not_false_eq_true, true_and]
    rfl
  · exact afterRecords_name var

theorem nameKept_iff (found : view.functions[i]? = some func) (given : func.getVariableName var ≠ "") :
    NameKept view i func var ↔
      (Leading view i func → ∀ isParam, Reaches func isParam var →
        looksMadeUp isParam (func.getVariableName var) = false) := by
  constructor
  · rintro kept leading isParam ⟨ordinal, aimed⟩
    by_contra taken
    -- an export with one record, which has another name for the variable
    let record : GhidraParameter :=
      { funcAddr := func.start - view.start, name := func.getVariableName var ++ "_", isParam, ordinal }
    let data : GhidraDbExport := { parameters := [record] }
    obtain ⟨later, there, same⟩ := kept data
    obtain ⟨lead, other, leads, here, name⟩ := @imported_name view func var i found data
    rw [there, Option.some.injEq] at here
    subst here
    have lead : lead = true := leads.mpr leading
    subst lead
    have reaching : parametersOf (rebaseOf view data) data true func.start = [record] := by
      simp [parametersOf, reaching, data, record, rebaseOf]
    have speaks : speakers func [record] var = [record] := by
      have aimedRecord : aimedAt func.parameterVariables func.vars.keys record = some var := aimed
      have goes : replaces record (func.getVariableName var) = true := Bool.eq_true_of_not_eq_false taken
      rw [speakers, recordsFor, if_pos aimedRecord, recordsFor, naming, Settle.through, if_pos goes, Settle.through]
    rw [reaching, speaks, same] at name
    have longer := congrArg String.length name
    simp [record] at longer
  · intro safe data
    obtain ⟨lead, later, leads, there, name⟩ := @imported_name view func var i found data
    refine ⟨later, there, ?_⟩
    have silent : speakers func (parametersOf (rebaseOf view data) data lead func.start) var = [] := by
      apply Settle.through_eq_nil
      intro param member
      have aimed := aimedAt_of_mem_recordsFor (mem_keys_of_named given) member
      cases lead with
      | false =>
        rw [parametersOf_shadowed] at member
        cases member
      | true => exact safe (leads.mp rfl) param.isParam ⟨param.ordinal, aimed⟩
    rw [name, silent]
    rfl

end Import

/-! ## Both -/

/-- The name of a slot is sent when it is not the one on record, and no import replaces it. -/
def Respected (state : CheckinState) (view : BinaryView) (i : Nat) (func : BNFunction) (slot : Slot) : Prop :=
  (Differs state view func slot → Reported state view func slot) ∧ NameKept view i func slot.var

/-- A chosen name is respected exactly when it does not start as the made-up names do of each
kind it is looked at as. -/
theorem chosen_name_respected_iff {state : CheckinState} {view : BinaryView} {i : Nat} {func : BNFunction} {slot : Slot}
    (found : view.functions[i]? = some func) (listed : slot ∈ slotsOf func.parameterVariables func.vars.keys)
    (chosen : Chosen (func.getVariableName slot.var)) :
    Respected state view i func slot ↔
      (Differs state view func slot →
        state.checkinItem ≠ "" ∧ looksMadeUp slot.isParam (func.getVariableName slot.var) = false) ∧
      (Leading view i func → ∀ isParam, Reaches func isParam slot.var →
        looksMadeUp isParam (func.getVariableName slot.var) = false) := by
  refine and_congr (forall_congr' fun differs => ?_) (nameKept_iff found chosen.given)
  exact reported_iff (List.mem_of_getElem? found) listed chosen.given differs

private def mainParameter : Variable := { type := .register, storage := 55 }

private def mainNamed (name : String) : BNFunction :=
  { start := 0x401000
    parameterVariables := [mainParameter]
    vars := Table.set ∅ mainParameter ⟨name, none⟩ }

private def importedProgram : CheckinState := { checkinItem := "prog" }

theorem count_respected :
    let func := mainNamed "count"
    let slot : Slot := ⟨true, 0, mainParameter⟩
    slot ∈ slotsOf func.parameterVariables func.vars.keys ∧ Chosen (func.getVariableName slot.var) ∧
      Respected importedProgram { functions := [func] } 0 func slot := by
  intro func slot
  have listed : slot ∈ slotsOf func.parameterVariables func.vars.keys := by
    exact List.mem_append_left _ List.mem_cons_self
  have chosen : Chosen (func.getVariableName slot.var) := ⟨by decide +kernel, by decide +kernel⟩
  refine ⟨listed, chosen, (chosen_name_respected_iff rfl listed chosen).mpr ⟨fun _ => ?_, fun _ isParam _ => ?_⟩⟩
  · exact ⟨by decide, by decide +kernel⟩
  · cases isParam <;> decide +kernel

/-- `argc` is nobody's default, and is neither sent nor left alone. -/
theorem argc_taken_for_default :
    let func := mainNamed "argc"
    let slot : Slot := ⟨true, 0, mainParameter⟩
    let view : BinaryView := { functions := [func] }
    let data : GhidraDbExport := { parameters := [{ funcAddr := 0x401000, name := "param_1" }] }
    slot ∈ slotsOf func.parameterVariables func.vars.keys ∧ Chosen (func.getVariableName slot.var) ∧
      Differs importedProgram view func slot ∧ (collectCheckinChanges importedProgram view).newParams = [] ∧
      (applyToView view data).1.functions.map (fun later => later.getVariableName slot.var) = ["param_1"] ∧
      ¬Respected importedProgram view 0 func slot := by
  intro func slot view data
  have listed : slot ∈ slotsOf func.parameterVariables func.vars.keys := by
    exact List.mem_append_left _ List.mem_cons_self
  have chosen : Chosen (func.getVariableName slot.var) := ⟨by decide +kernel, by decide +kernel⟩
  have differs : Differs importedProgram view func slot := ⟨rfl, nofun⟩
  have unsent : (collectCheckinChanges importedProgram view).newParams = [] := by decide +kernel
  refine ⟨listed, chosen, differs, unsent, by decide +kernel, ?_⟩
  rintro ⟨reported, -⟩
  obtain ⟨p, sent, -⟩ := reported differs
  rw [unsent] at sent
  cases sent

end GhidraBridge.VariableNames
