import GhidraBridge.Reimport
import GhidraBridge.VariableConvergence

/-! The variables of an export that nobody touched. The import names them one record
at a time, with the types known before the export's own are registered; the diff
compares what is there with one record for each slot, and takes a type the record
does not name for a change. -/
namespace GhidraBridge.VariableBaseline
open Lib CheckinState SyncEngine FunctionPasses VariableSettling VariableConvergence CheckinRetention

/-! ## What the diff compares -/

/-- A place the diff looks at: a parameter by its index, a stack variable by its offset. -/
structure Slot where
  isParam : Bool
  ordinal : Int32
  var : Variable

/-- The slots of a function, by its parameters and the variables it lists. -/
def slotsOf (parameters listed : List Variable) : List Slot :=
  (parameters.zipIdx.map fun (var, i) => ⟨true, Int32.ofNat i, var⟩) ++
    (listed.filter fun var => var.type = .stack).map fun var => ⟨false, var.storage.toInt32, var⟩

/-- A name the analysis makes up for a variable of the kind. -/
def looksMadeUp (isParam : Bool) (name : String) : Bool :=
  if isParam then isAutoGenParam name else isAutoGenLocal name

theorem looksMadeUp_empty (isParam : Bool) : looksMadeUp isParam "" = true := by cases isParam <;> rfl

/-- A type's text passes for the name: it is empty, or both have one canonical form. -/
def Alike (text typeName : String) : Prop := text = "" ∨ canonicalTypeName text = canonicalTypeName typeName

section Baseline
variable (records : List GhidraParameter)

/-- The record a slot keeps the key of: the last one there. -/
def recordAt (isParam : Bool) (funcAddr : UInt64) (ordinal : Int32) : Option GhidraParameter :=
  records.reverse.find? fun p => p.isParam = isParam ∧ p.funcAddr = funcAddr ∧ p.ordinal = ordinal

/-- The name kept under a key. -/
def nameUnder (key : Int64) : String := ((records.reverse.find? fun p => p.key = key).map GhidraParameter.name).getD ""

/-- The type name kept under a key; no record without one replaces it. -/
def typeUnder (key : Int64) : String :=
  (((records.filter fun p => p.typeName ≠ "").reverse.find? fun p => p.key = key).map GhidraParameter.typeName).getD ""

theorem lookupNested_ordinalKeys (isParam : Bool) (funcAddr : UInt64) (ordinal : Int32) :
    (ordinalKeys isParam records).lookupNested funcAddr ordinal =
      (recordAt records isParam funcAddr ordinal).map GhidraParameter.key := by
  have fold (kept : List GhidraParameter) (keys : Table UInt64 (Table Int32 Int64)) :
      (kept.foldl (fun keys p => keys.setNested p.funcAddr p.ordinal p.key) keys).lookupNested funcAddr ordinal =
        ((kept.reverse.find? fun p => p.funcAddr = funcAddr ∧ p.ordinal = ordinal).map GhidraParameter.key).or
          (keys.lookupNested funcAddr ordinal) := by
    induction kept generalizing keys with
    | nil => rfl
    | cons p rest ih =>
      rw [List.foldl_cons, ih, Table.lookupNested_setNested, List.reverse_cons, List.find?_append]
      cases rest.reverse.find? fun p => p.funcAddr = funcAddr ∧ p.ordinal = ordinal with
      | some later => rfl
      | none =>
        by_cases here : p.funcAddr = funcAddr ∧ p.ordinal = ordinal
        · rw [if_pos ⟨here.1.symm, here.2.symm⟩]
          simp [here]
        · rw [if_neg fun both => here ⟨both.1.symm, both.2.symm⟩]
          simp [here]
  have empty : (∅ : Table UInt64 (Table Int32 Int64)).lookupNested funcAddr ordinal = none := rfl
  rw [ordinalKeys, fold, recordAt, empty, Option.or_none, ← List.filter_reverse, List.find?_filter]
  simp only [decide_eq_true_eq]

end Baseline

/-- The slots with keys are what the diff walks. -/
theorem keyedVarsOf_eq (state : CheckinState) (view : BinaryView) (func : BNFunction) :
    keyedVarsOf state view func =
      (slotsOf func.parameterVariables func.vars.keys).filterMap fun slot =>
        ((if slot.isParam then state.paramKeyByAddrOrdinal else state.localKeyByAddrOffset).lookupNested
          (func.start - rebase state view) slot.ordinal).map fun key =>
            ⟨func, slot.var, key, looksMadeUp slot.isParam (func.getVariableName slot.var)⟩ := by
  have keys : func.vars.keys = func.vars.items.map Prod.fst := by
    rw [Table.items, List.map_map]
    rfl
  rw [keyedVarsOf, slotsOf, List.filterMap_append, List.filterMap_map, keys, List.filter_map, List.map_map,
    List.filterMap_map]
  congr 1
  refine List.filterMap_congr fun entry listed => ?_
  have held := Table.mem_items.mp (List.mem_of_mem_filter listed)
  have name : func.getVariableName entry.1 = entry.2.name := by
    rw [BNFunction.getVariableName, held]
    rfl
  simp only [Function.comp_apply, name]
  rfl

/-- What one slot is compared with. -/
structure Matches (view : BinaryView) (func : BNFunction) (slot : Slot) (name typeName : String) : Prop where
  name : looksMadeUp slot.isParam (func.getVariableName slot.var) = true ∨ func.getVariableName slot.var = name
  type : Alike (typeText view (func.getVariableType slot.var)) typeName

theorem checkVar_eq_none (state : CheckinState) (view : BinaryView) (func : BNFunction) (slot : Slot) (key : Int64) :
    checkVar state view ⟨func, slot.var, key, looksMadeUp slot.isParam (func.getVariableName slot.var)⟩ = none ↔
      Matches view func slot (textAt state.paramOriginalNameByKey key) (textAt state.paramOriginalTypeByKey key) := by
  rw [show checkVar state view _ = diffVar view _ _ _ from rfl, diffVar_eq_none]
  constructor
  · rintro ⟨named, typed⟩
    refine ⟨?_, ?_⟩
    · by_cases made : looksMadeUp slot.isParam (func.getVariableName slot.var) = true
      · exact .inl made
      · refine .inr (named ⟨fun empty => made ?_, Bool.eq_false_iff.mpr made⟩)
        rw [show func.getVariableName slot.var = "" from empty, looksMadeUp_empty]
    · by_cases empty : typeText view (func.getVariableType slot.var) = ""
      · exact .inl empty
      · exact .inr (typed empty)
  · rintro ⟨name, type⟩
    refine ⟨fun named => ?_, fun typed => type.resolve_left typed⟩
    exact name.resolve_left (Bool.eq_false_iff.mp named.2)

/-- Every slot of a function with a record matches what is kept under the record's key. -/
def FunctionMatches (view : BinaryView) (records : List GhidraParameter) (rebase : UInt64) (func : BNFunction) : Prop :=
  ∀ slot ∈ slotsOf func.parameterVariables func.vars.keys,
    ∀ p, recordAt records slot.isParam (func.start - rebase) slot.ordinal = some p →
      Matches view func slot (nameUnder records p.key) (typeUnder records p.key)

/-- Nothing is collected exactly when every function matches. -/
theorem collectParamRenames_eq_nil {view later : BinaryView} {data : GhidraDbExport} {repo folder item : String}
    (sameStart : later.start = view.start) :
    collectParamRenames (store (applyToView view data).2 repo folder item) later = [] ↔
      ∀ func ∈ later.functions, FunctionMatches later data.parameters (rebaseOf view data) func := by
  have parameters : (applyToView view data).2.parameters = data.parameters := rfl
  have name (key : Int64) :
      textAt (store (applyToView view data).2 repo folder item).paramOriginalNameByKey key =
        nameUnder data.parameters key := by
    rw [textAt, store, Table.lookup_writeAll, nameUnder]
    simp [parameters]
  have type (key : Int64) :
      textAt (store (applyToView view data).2 repo folder item).paramOriginalTypeByKey key =
        typeUnder data.parameters key := by
    rw [textAt, store, Table.lookup_writeAll, typeUnder]
    simp [parameters]
  have keyed (slot : Slot) (func : BNFunction) :
      (if slot.isParam then (store (applyToView view data).2 repo folder item).paramKeyByAddrOrdinal
        else (store (applyToView view data).2 repo folder item).localKeyByAddrOffset).lookupNested
          (func.start - rebase (store (applyToView view data).2 repo folder item) later) slot.ordinal =
        (recordAt data.parameters slot.isParam (func.start - rebaseOf view data) slot.ordinal).map
          GhidraParameter.key := by
    rw [rebase_store_later data repo folder item sameStart]
    cases isParam : slot.isParam <;> exact lookupNested_ordinalKeys _ _ _ _
  unfold collectParamRenames keyedVars
  simp only [List.filterMap_eq_nil_iff, List.mem_flatMap, keyedVarsOf_eq, List.mem_filterMap, keyed,
    Option.map_eq_some_iff]
  constructor
  · intro unchanged func member slot listed p found
    have quiet := unchanged _ ⟨func, member, slot, listed, p.key, ⟨p, found, rfl⟩, rfl⟩
    rw [checkVar_eq_none, name, type] at quiet
    exact quiet
  · rintro settled _ ⟨func, member, slot, listed, key, ⟨p, found, rfl⟩, rfl⟩
    rw [checkVar_eq_none, name, type]
    exact settled func member slot listed p found

/-! ## What the import leaves -/

section Named
variable (early : BinaryView) (func : BNFunction) (records : List GhidraParameter)

/-- The records that name a variable, each of them while the name before it looks made up. -/
def speakers (var : Variable) : List GhidraParameter :=
  naming (func.getVariableName var) (recordsFor func.parameterVariables var func.vars.keys records)

/-- The variables listed once the records have run. -/
def listedAfter : List Variable := records.foldl (listing func.parameterVariables) func.vars.keys

/-- A slot the records leave as the diff expects it. The last record that names the
variable gives the name kept for the slot or one that looks made up, and the last one
whose type resolves gives a type that is spelled as the one kept. Where no record
speaks, that is asked of the analysis: of its name for the variable, and of its type. -/
structure SlotSettled (slot : Slot) (name typeName : String) : Prop where
  named : ∀ q ∈ (speakers func records slot.var).getLast?, looksMadeUp slot.isParam q.name = true ∨ q.name = name
  unnamed : speakers func records slot.var = [] →
    looksMadeUp slot.isParam (func.getVariableName slot.var) = true ∨ func.getVariableName slot.var = name
  typed : ∀ type ∈ ((speakers func records slot.var).filterMap fun q => resolveTypeName early q.typeName).getLast?,
    Alike (early.getString type) typeName
  untyped : (∀ q ∈ speakers func records slot.var, resolveTypeName early q.typeName = none) →
    ∀ type ∈ func.getVariableType slot.var, Alike (early.getString type) typeName

variable {early func records}

/-- The function after the records have run. -/
def afterRecords (early : BinaryView) (func : BNFunction) (records : List GhidraParameter) : BNFunction :=
  { func with vars := records.foldl (nameVariable early func.parameterVariables) func.vars }

theorem afterRecords_name (var : Variable) :
    (afterRecords early func records).getVariableName var =
      ((speakers func records var).getLast?.map GhidraParameter.name).getD (func.getVariableName var) := by
  have left := congrArg Prod.fst (foldl_nameVariable_lookup early func.parameterVariables records func.vars var)
  rw [Settle.foldl_relabel] at left
  exact left

theorem afterRecords_type (var : Variable) :
    (afterRecords early func records).getVariableType var =
      ((speakers func records var).filterMap fun q => resolveTypeName early q.typeName).getLast?.or
        (func.getVariableType var) := by
  have left := congrArg Prod.snd (foldl_nameVariable_lookup early func.parameterVariables records func.vars var)
  rw [Settle.foldl_relabel] at left
  exact left

theorem afterRecords_keys : (afterRecords early func records).vars.keys = listedAfter func records :=
  foldl_nameVariable_keys early func.parameterVariables records func.vars

/-- The slot is settled exactly when what the records leave matches. -/
theorem matches_iff_settled {later : BinaryView} (sameHost : later.host = early.host) {slot : Slot}
    {name typeName : String} :
    Matches later (afterRecords early func records) slot name typeName ↔
      SlotSettled early func records slot name typeName := by
  have spelled (type : BNType) : later.getString type = early.getString type := by
    rw [BinaryView.getString, sameHost, BinaryView.getString]
  have names : (looksMadeUp slot.isParam ((afterRecords early func records).getVariableName slot.var) = true ∨
        (afterRecords early func records).getVariableName slot.var = name) ↔
      (∀ q ∈ (speakers func records slot.var).getLast?, looksMadeUp slot.isParam q.name = true ∨ q.name = name) ∧
        (speakers func records slot.var = [] →
          looksMadeUp slot.isParam (func.getVariableName slot.var) = true ∨ func.getVariableName slot.var = name) := by
    rw [afterRecords_name]
    cases last : (speakers func records slot.var).getLast? with
    | none => simp [List.getLast?_eq_none_iff.mp last]
    | some q =>
      have speaks : speakers func records slot.var ≠ [] := by
        rintro silent
        rw [silent] at last
        cases last
      simp [speaks]
  have types : Alike (typeText later ((afterRecords early func records).getVariableType slot.var)) typeName ↔
      (∀ type ∈ ((speakers func records slot.var).filterMap fun q => resolveTypeName early q.typeName).getLast?,
        Alike (early.getString type) typeName) ∧
      ((∀ q ∈ speakers func records slot.var, resolveTypeName early q.typeName = none) →
        ∀ type ∈ func.getVariableType slot.var, Alike (early.getString type) typeName) := by
    rw [afterRecords_type, ← List.filterMap_eq_nil_iff]
    cases last : ((speakers func records slot.var).filterMap fun q =>
        resolveTypeName early q.typeName).getLast? with
    | none =>
      rw [Option.none_or, typeText, List.getLast?_eq_none_iff.mp last]
      cases func.getVariableType slot.var with
      | none => simp [Alike]
      | some type => simp [spelled]
    | some type =>
      have resolves : ((speakers func records slot.var).filterMap fun q => resolveTypeName early q.typeName) ≠ [] := by
        rintro silent
        rw [silent] at last
        cases last
      simp [typeText, spelled, resolves]
  constructor
  · rintro ⟨name, type⟩
    exact ⟨(names.mp name).1, (names.mp name).2, (types.mp type).1, (types.mp type).2⟩
  · rintro ⟨named, unnamed, typed, untyped⟩
    exact ⟨names.mpr ⟨named, unnamed⟩, types.mpr ⟨typed, untyped⟩⟩

end Named

/-- A resolved type is never spelled as nothing. -/
theorem resolved_getString_ne {view : BinaryView} {typeName : String} {type : BNType}
    (resolves : resolveTypeName view typeName = some type) : view.getString type ≠ "" := by
  have primitives : ∀ prim ∈ prims, prim.type.getString (fun _ => none) ≠ "" := by decide +kernel
  rw [resolveTypeName, resolveChars_eq] at resolves
  split at resolves
  · cases resolves
  · rename_i nonempty
    split at resolves
    · cases resolves
      simp [BinaryView.getString, BNType.getString]
    · rw [hinted_zero, Option.or_none] at resolves
      rcases Option.or_eq_some_iff.mp resolves with array | ⟨_, known⟩
      · obtain ⟨parts, _, array⟩ := Option.bind_eq_some_iff.mp array
        split at array
        · obtain ⟨inner, _, rfl⟩ := Option.map_eq_some_iff.mp array
          simp [BinaryView.getString, BNType.getString]
        · cases array
      · rcases Option.or_eq_some_iff.mp known with named | ⟨_, prim⟩
        · obtain ⟨registered, _, rfl⟩ := Option.map_eq_some_iff.mp named
          simp only [BinaryView.getString, BNType.getString, ne_eq, String.append_eq_empty_iff, not_and]
          intro _ empty
          exact nonempty (by simpa using empty)
        · obtain ⟨entry, member, _, rfl⟩ := primitive_mem prim
          rw [BinaryView.getString, prim_getString]
          exact primitives entry member

/-- Of a variable with one record only the type can come out differently: it does not
exactly when the type name reads back with the types known so far, the type of the
analysis standing in where it does not resolve. A record without a type name never
settles a variable the analysis has a type for. -/
theorem single_record_settled_iff {early : BinaryView} {func : BNFunction} {records : List GhidraParameter}
    {slot : Slot} {p : GhidraParameter} {guess : BNType} (single : speakers func records slot.var = [p])
    (guessed : func.getVariableType slot.var = some guess)
    (spelled : canonicalChars (early.getString guess).toList ≠ []) :
    SlotSettled early func records slot p.name p.typeName ↔
      readsBack early.knows early.host.keyword (canonicalChars (early.getString guess).toList)
        p.typeName.toList = true := by
  have shown : early.getString ((resolveTypeName early p.typeName).getD guess) ≠ "" := by
    cases resolves : resolveTypeName early p.typeName with
    | some type => exact resolved_getString_ne resolves
    | none =>
      intro empty
      rw [show early.getString guess = "" from empty] at spelled
      exact spelled canonicalChars_nil
  have unhinted : ∀ type, hinted 0 = some type → type = guess := by simp [hinted_zero]
  have reads := resolved_reads_back_iff early p.typeName.toList unhinted spelled
  change canonicalChars (early.getString ((resolveTypeName early p.typeName).getD guess)).toList = _ ↔ _ at reads
  have alike : Alike (early.getString ((resolveTypeName early p.typeName).getD guess)) p.typeName ↔
      canonicalChars (early.getString ((resolveTypeName early p.typeName).getD guess)).toList =
        canonicalChars p.typeName.toList := by
    rw [Alike, or_iff_right shown, canonicalTypeName, canonicalTypeName, String.ofList_inj]
  rw [← reads, ← alike]
  constructor
  · rintro ⟨_, _, typed, untyped⟩
    rw [single] at typed untyped
    cases resolves : resolveTypeName early p.typeName with
    | some type => exact typed type (by simp [resolves])
    | none => exact untyped (fun q alone => List.mem_singleton.mp alone ▸ resolves) guess guessed
  · intro same
    refine ⟨?_, ?_, ?_, ?_⟩
    · rw [single]
      rintro q ⟨⟩
      exact .inr rfl
    · rw [single]
      rintro ⟨⟩
    · rw [single]
      intro type given
      have resolves : resolveTypeName early p.typeName = some type := by
        cases found : resolveTypeName early p.typeName <;> simp_all
      rw [resolves] at same
      exact same
    · rw [single, guessed]
      rintro unresolved _ ⟨⟩
      rw [unresolved p List.mem_cons_self] at same
      exact same

/-! ## The functions -/

/-- The functions that do not lead their address are the view's own: one is created
only where none starts. -/
theorem foldl_applySymbol_shadowed (rebase : UInt64) (symbols : List GhidraSymbol) (s : ImportState)
    (func : BNFunction) :
    (false, func) ∈ Leads.leads BNFunction.start [] (symbols.foldl (applySymbol rebase) s).view.functions ↔
      (false, func) ∈ Leads.leads BNFunction.start [] s.view.functions := by
  induction symbols generalizing s with
  | nil => rfl
  | cons sym rest ih =>
    rw [List.foldl_cons, ih, WritebackMaps.applySymbol_functions, WritebackMaps.createMissing]
    split
    · rename_i creates
      have none := List.find?_eq_none.mp (Option.isNone_iff_eq_none.mp creates.2)
      have fresh : ∀ other ∈ s.view.functions, other.start ≠ sym.addr + rebase := by
        intro other member
        simpa using none other member
      rw [BinaryView.createUserFunction, Leads.leads_append_fresh [] List.not_mem_nil fresh]
      simp
    · rfl

section
variable (view : BinaryView) (data : GhidraDbExport)

/-- Every slot of a function with a record of the export is settled. -/
def FunctionSettled (func : BNFunction) (records : List GhidraParameter) : Prop :=
  ∀ slot ∈ slotsOf func.parameterVariables (listedAfter func records),
    ∀ p, recordAt data.parameters slot.isParam (func.start - rebaseOf view data) slot.ordinal = some p →
      SlotSettled (withEquates data view) func records slot (nameUnder data.parameters p.key)
        (typeUnder data.parameters p.key)

/-- The records reach the function found at their address. One that starts where another
one does is compared with the records all the same. -/
structure VariablesSettled : Prop where
  found : ∀ addr func, Reimport.functionFor view data addr = some func →
    FunctionSettled view data func (parametersOf (rebaseOf view data) data true func.start)
  shadowed : ∀ func, (false, func) ∈ Leads.leads BNFunction.start [] view.functions →
    FunctionSettled view data func []

theorem afterSymbols_shadowed (func : BNFunction) :
    (false, func) ∈ Leads.leads BNFunction.start [] (afterSymbols view data).view.functions ↔
      (false, func) ∈ Leads.leads BNFunction.start [] view.functions := by
  rw [afterSymbols, foldl_applySymbol_shadowed, afterBlocks_functions]

theorem parametersOf_shadowed (rebase start : UInt64) : parametersOf rebase data false start = [] :=
  reaching_false ..

/-- What the diff finds in a function whose variables the records have named. -/
theorem functionSettled_iff {func imported : BNFunction} {records : List GhidraParameter}
    (start : imported.start = func.start) (parameters : imported.parameterVariables = func.parameterVariables)
    (vars : imported.vars = (afterRecords (withEquates data view) func records).vars) :
    FunctionMatches (applyToView view data).1 data.parameters (rebaseOf view data) imported ↔
      FunctionSettled view data func records := by
  have host : (applyToView view data).1.host = (withEquates data view).host := by
    rw [applyToView_host, TypeSettling.withEquates_eq]
  have shown (slot : Slot) (name typeName : String) :
      Matches (applyToView view data).1 imported slot name typeName ↔
        SlotSettled (withEquates data view) func records slot name typeName := by
    rw [← matches_iff_settled host]
    have names : imported.getVariableName slot.var =
        (afterRecords (withEquates data view) func records).getVariableName slot.var := by
      rw [BNFunction.getVariableName, vars, BNFunction.getVariableName]
    have types : imported.getVariableType slot.var =
        (afterRecords (withEquates data view) func records).getVariableType slot.var := by
      rw [BNFunction.getVariableType, vars, BNFunction.getVariableType]
    constructor
    · rintro ⟨name, type⟩
      exact ⟨names ▸ name, types ▸ type⟩
    · rintro ⟨name, type⟩
      exact ⟨names ▸ name, types ▸ type⟩
  rw [FunctionMatches, start, parameters, vars, afterRecords_keys]
  exact forall₂_congr fun slot _ => forall₂_congr fun p _ => shown slot _ _

theorem applyToView_functions_settled_iff :
    (∀ func ∈ (applyToView view data).1.functions,
      FunctionMatches (applyToView view data).1 data.parameters (rebaseOf view data) func) ↔
        VariablesSettled view data := by
  rw [Reimport.applyToView_functions_eq, Leads.each]
  simp only [List.forall_mem_map]
  -- of all the passes only that of the records reaches the variables
  have compared (entry : Bool × BNFunction) :=
    @functionSettled_iff view data entry.2
      (passed (rebaseOf view data) (Reimport.functionKeys (rebaseOf view data) data.symbols) data
        (withEquates data view) (withTypes data view) entry.1 entry.2)
      (parametersOf (rebaseOf view data) data entry.1 entry.2.start) rfl rfl rfl
  simp only [compared]
  constructor
  · intro settled
    refine ⟨fun addr func found => ?_, fun func shadowed => ?_⟩
    · have start := Reimport.start_of_functionFor view data found
      subst start
      exact settled (true, func) ((Reimport.mem_leads_iff view data).mpr found)
    · have here := settled (false, func) ((afterSymbols_shadowed view data func).mpr shadowed)
      rw [parametersOf_shadowed] at here
      exact here
  · rintro ⟨found, shadowed⟩ ⟨lead, func⟩ member
    cases lead with
    | false =>
      dsimp only
      rw [parametersOf_shadowed]
      exact shadowed func ((afterSymbols_shadowed view data func).mp member)
    | true => exact found func.start func ((Reimport.mem_leads_iff view data).mp member)

end

/-- An untouched check-in sends no variable exactly when nothing was stored or every
slot with a record is settled by the records, with the types known before those of the
export are registered. -/
theorem untouched_checkin_sends_no_variable_iff (view : BinaryView) (data : GhidraDbExport)
    (repo folder item : String) :
    (untouchedPreview view data repo folder item).paramRenames = [] ↔ item = "" ∨ VariablesSettled view data := by
  unfold untouchedPreview collectCheckinChanges
  by_cases none : item = ""
  · simp [store, none]
  · have stored : (store (applyToView view data).2 repo folder item).checkinItem ≠ "" := none
    rw [if_neg stored]
    simp only [none, false_or]
    rw [collectParamRenames_eq_nil (applyToView_start view data), applyToView_functions_settled_iff]

/-- A parameter that points to a struct of the same export. -/
def pointExport : GhidraDbExport :=
  { dataTypes := [{ id := 1, kind := .struct, name := "Point", size := 4
                    members := [{ name := "x", size := 4, typeName := "int" }] }]
    parameters := [{ key := 7, funcAddr := 0x401000, name := "pt", isParam := true, ordinal := 0
                     typeName := "Point *", typeId := 1 }] }

/-- A function with one parameter, named and typed by the analysis. -/
def analysedView : BinaryView :=
  { functions := [{
      start := 0x401000
      parameterVariables := [{ type := .register, storage := 1 }]
      vars := Table.set ∅ { type := .register, storage := 1 } ⟨"arg1", some (.integer 8 true)⟩ }] }

/-- The struct is not known yet when the parameter is typed, and the diff sends what it
was typed as instead. -/
theorem pointer_parameter_sent_back :
    (∀ p ∈ pointExport.parameters, ∃ dt ∈ pointExport.dataTypes, p.typeName = dt.name ++ " *") ∧
      (∀ func ∈ analysedView.functions,
        (∀ var ∈ func.parameterVariables, isAutoGenParam (func.getVariableName var) = true) ∧
          ∀ var ∈ func.vars.keys, var.type = .stack → isAutoGenLocal (func.getVariableName var) = true) ∧
      (untouchedPreview analysedView pointExport "r" "/" "prog").paramRenames = [⟨7, "pt", "void*"⟩] := by
  refine ⟨by decide, by decide, by decide +kernel⟩

end GhidraBridge.VariableBaseline
