import GhidraBridge.AddressAcceptance
import GhidraBridge.Lib.Renames

/-! The parameters array of a check-in (`applyParameters` of `ProgramApplier.java`) against
the names of one function's variables. Ghidra refuses a name that another variable of the
function holds and the loop goes on with the next entry, so the order of the entries
decides which of them land. -/
namespace GhidraBridge.VariableRenames
open Lib Lib.Renames ProgramApplier

variable {space : AddressSpace} {P : Type}

/-! ## Variables that have a symbol -/

/-- What Ghidra says of the variables of one function: `setName` throws for a name another
one of them holds, and otherwise sets it; `setDataType` leaves the names alone. -/
structure NamedVariables (lib : ProgramLibrary space P) where
  nameOf : P → Int64 → Option String
  hasSymbol : ∀ {p key}, nameOf p key ≠ none → lib.hasSymbol p key = true
  refused : ∀ {p key name}, nameOf p key ≠ none → Taken (nameOf p) key name → lib.setName p key name = none
  renamed : ∀ {p key name}, nameOf p key ≠ none → name ≠ "" → ¬Taken (nameOf p) key name →
    ∃ later, lib.setName p key name = some later ∧ nameOf later = grant (nameOf p) (key, name)
  retyped : ∀ {p key type later}, lib.setVariableType p key type = some later → nameOf later = nameOf p

section Keyed
variable {lib : ProgramLibrary space P} (function : NamedVariables lib) (types : TypeLibrary)
  (manager : DataTypeManager) (program : P) (renames : List ParamRename)

/-- What the entries ask for. -/
def requestsOf : List (Int64 × String) := renames.map fun r => (r.key, r.name)

/-- Renames of the variables of a function, one for each variable, after which no two of the
function's variables have one name. -/
structure RenamesOf : Prop where
  known : ∀ r ∈ renames, function.nameOf program r.key ≠ none
  named : ∀ r ∈ renames, r.name ≠ ""
  once : (renames.map ParamRename.key).Nodup
  before : Distinct (function.nameOf program)
  after : Distinct (wanted (function.nameOf program) (requestsOf renames))

/-- Every variable listed has the name asked for once the array is applied. -/
def AllLand : Prop :=
  ∃ applied, applyParameters lib types manager program (renames.map CheckinJson.paramRenameEntry) = some applied ∧
    ∀ r ∈ renames, function.nameOf applied.program r.key = some r.name

variable {program renames}

theorem applyParameter_rename (applied : Counted P) (r : ParamRename) (named : r.name ≠ "") :
    applyParameter lib types manager applied (CheckinJson.paramRenameEntry r) =
      some (renameVariable lib types manager r.key r.name (CheckinJson.paramRenameEntry r) applied) := by
  have name : (CheckinJson.paramRenameEntry r).getStr "name" "" = some r.name := rfl
  have key : (CheckinJson.paramRenameEntry r).get? "key" = some (int64Json r.key) := rfl
  have read : (int64Json r.key).getAsLong = some r.key := Json.getAsLong_toInt r.key
  rw [applyParameter, if_neg (by simp [CheckinJson.paramRenameEntry, Json.isObject]), name, key]
  simp only [Option.bind_eq_bind, Option.bind_some, if_neg named, read]
  rfl

/-- An entry asks for its name, and its type does not matter. -/
theorem renameVariable_names (applied : Counted P) {key : Int64} {name : String} (c : Json)
    (known : function.nameOf applied.program key ≠ none) (named : name ≠ "") :
    function.nameOf (renameVariable lib types manager key name c applied).program =
      ask (function.nameOf applied.program) (key, name) := by
  rw [renameVariable, if_neg (by simp [function.hasSymbol known])]
  by_cases taken : Taken (function.nameOf applied.program) key name
  · rw [function.refused known taken, ask_of_taken taken]
  · obtain ⟨later, set, names⟩ := function.renamed known named taken
    rw [set, ask_of_free taken, ← names]
    dsimp only
    split
    · rfl
    · rename_i found resolved
      cases found with
      | none => rfl
      | some type =>
        cases retyped : lib.setVariableType later key type with
        | none => simp [retyped]
        | some final => simp [retyped, function.retyped retyped]

private theorem ask_ne_none {names : Int64 → Option String} {key : Int64} (request : Int64 × String)
    (held : names key ≠ none) : ask names request key ≠ none := by
  by_cases here : key = request.1
  · unfold ask
    split
    · exact held
    · rw [here, grant_self]
      exact Option.some_ne_none _
  · rw [ask_of_ne here]
    exact held

/-- The array is run to its end, and leaves the names that asking for each in turn leaves. -/
theorem applyParameters_names (applied : Counted P)
    (known : ∀ r ∈ renames, function.nameOf applied.program r.key ≠ none)
    (named : ∀ r ∈ renames, r.name ≠ "") :
    ∃ final, (renames.map CheckinJson.paramRenameEntry).foldlM (applyParameter lib types manager) applied = some final ∧
      function.nameOf final.program = (requestsOf renames).foldl ask (function.nameOf applied.program) := by
  induction renames generalizing applied with
  | nil => exact ⟨applied, rfl, rfl⟩
  | cons r rest ih =>
    have first := renameVariable_names function types manager applied
      (CheckinJson.paramRenameEntry r) (known r List.mem_cons_self) (named r List.mem_cons_self)
    have later : ∀ other ∈ rest, function.nameOf
        (renameVariable lib types manager r.key r.name (CheckinJson.paramRenameEntry r) applied).program other.key ≠
          none := by
      intro other member
      rw [first]
      exact ask_ne_none _ (known other (List.mem_cons_of_mem r member))
    obtain ⟨final, ran, names⟩ := ih _ later fun other member => named other (List.mem_cons_of_mem r member)
    refine ⟨final, ?_, ?_⟩
    · rw [List.map_cons, List.foldlM_cons, applyParameter_rename types manager applied r (named r List.mem_cons_self)]
      exact ran
    · rw [names, first]
      rfl

variable {types manager}

/-- All renames land exactly when none asks for the name of a variable that is renamed
later. -/
theorem renames_land_iff (asked : RenamesOf function program renames) :
    AllLand function types manager program renames ↔
      renames.Pairwise fun a b => function.nameOf program b.key ≠ some a.name := by
  obtain ⟨final, ran, names⟩ :=
    applyParameters_names function types manager { program } asked.known asked.named
  have once : ((requestsOf renames).map Prod.fst).Nodup := by
    rw [requestsOf, List.map_map]
    exact asked.once
  have granted := all_granted_iff once asked.before
  rw [and_iff_right asked.after, requestsOf, List.pairwise_map, ← requestsOf, ← names] at granted
  rw [← granted]
  constructor
  · rintro ⟨applied, same, land⟩ request member
    obtain ⟨r, listed, rfl⟩ := List.mem_map.mp member
    rw [applyParameters, ran, Option.some.injEq] at same
    exact same ▸ land r listed
  · intro all
    exact ⟨final, ran, fun r member => all (r.key, r.name) (List.mem_map_of_mem member)⟩

end Keyed

/-! ## A function with two parameters -/

/-- A function by the names of its variables, with calls that do nothing else. -/
def variableLibrary : ProgramLibrary {} (Table Int64 String) where
  hasSymbol p key := (p.lookup key).isSome
  setName p key name :=
    if p.keys.any fun other => other ≠ key && p.lookup other = some name then none else some (p.set key name)
  createLabel _ _ _ := none
  isVariable _ _ := true
  setVariableType p _ _ := some p
  hasFunctionAt _ _ := false
  countParameters _ _ := none
  setParameterName _ _ _ _ := none
  setParameterType _ _ _ _ := none
  addParameter _ _ _ _ := none
  getDataAt _ _ := none
  clearCodeUnits _ _ _ := none
  createData _ _ _ := none
  hasFunction _ _ := some false
  setReturnType _ _ _ := none
  callingConventions _ := []
  setCallingConvention _ _ _ := none

private theorem taken_iff {p : Table Int64 String} {key : Int64} {name : String} :
    Taken p.lookup key name ↔ (p.keys.any fun other => other ≠ key && p.lookup other = some name) = true := by
  rw [List.any_eq_true]
  constructor
  · rintro ⟨other, apart, holds⟩
    have listed : other ∈ p.keys := AList.mem_keys.mp (AList.lookup_isSome.mp (by simp [holds]))
    exact ⟨other, listed, by simp [apart, holds]⟩
  · rintro ⟨other, -, both⟩
    simp only [Bool.and_eq_true, decide_eq_true_eq] at both
    exact ⟨other, both.1, both.2⟩

def namedVariables : NamedVariables variableLibrary where
  nameOf p := p.lookup
  hasSymbol known := Option.isSome_iff_ne_none.mpr known
  refused _ taken := if_pos (taken_iff.mp taken)
  renamed {p key name} _ _ free := by
    refine ⟨p.set key name, if_neg (mt taken_iff.mpr free), ?_⟩
    funext other
    rw [Table.lookup_set, grant, Function.update_apply]
  retyped same := by rw [Option.some.inj same]

/-- No type is resolved here. -/
def noTypes : TypeLibrary where
  isLetterOrDigit _ := true
  parse _ _ := none
  getLength _ _ := 1
  insertAtOffset _ _ _ _ _ _ := none
  add _ _ _ _ _ := none
  addToUnion _ _ _ _ _ := none
  growStructure s _ := s
  structureLength s := if s.length = 0 then 1 else s.length
  addEntry _ _ _ _ _ := none
  newId _ := 1

def twoParameters : Table Int64 String := (Table.set ∅ 1 "a").set 2 "b"

private theorem names_of_two (key : Int64) :
    namedVariables.nameOf twoParameters key = if key = 2 then some "b" else if key = 1 then some "a" else none := by
  change twoParameters.lookup key = _
  rw [twoParameters, Table.lookup_set, Table.lookup_set]
  rfl

private theorem distinct_of_two {names : Int64 → Option String} {first second : String} (apart : first ≠ second)
    (only : ∀ key, names key = if key = 2 then some second else if key = 1 then some first else none) :
    Distinct names := by
  intro key other name holds alsoHolds
  rw [only] at holds alsoHolds
  grind

/-- Renames of both parameters, to two names. -/
private theorem renames_of_two {first second : String} (apart : first ≠ second) (named : first ≠ "" ∧ second ≠ "") :
    RenamesOf namedVariables twoParameters [⟨1, first, ""⟩, ⟨2, second, ""⟩] where
  known := by
    intro r member
    rw [names_of_two]
    rcases List.mem_cons.mp member with rfl | member
    · simp
    · rw [List.mem_singleton.mp member]
      simp
  named := by simpa using named
  once := by simp
  before := distinct_of_two (by decide) names_of_two
  after := by
    refine distinct_of_two apart fun key => ?_
    have both : wanted (namedVariables.nameOf twoParameters) (requestsOf [⟨1, first, ""⟩, ⟨2, second, ""⟩]) key =
        Function.update (Function.update (namedVariables.nameOf twoParameters) 1 (some first)) 2 (some second) key :=
      rfl
    rw [both, Function.update_apply, Function.update_apply, names_of_two]
    split
    · rfl
    · split <;> rfl

theorem two_renames_land :
    RenamesOf namedVariables twoParameters [⟨1, "size", ""⟩, ⟨2, "count", ""⟩] ∧
      AllLand namedVariables noTypes ∅ twoParameters [⟨1, "size", ""⟩, ⟨2, "count", ""⟩] := by
  have asked : RenamesOf namedVariables twoParameters [⟨1, "size", ""⟩, ⟨2, "count", ""⟩] :=
    renames_of_two (by decide) (by decide)
  refine ⟨asked, (renames_land_iff namedVariables asked).mpr ?_⟩
  rw [List.pairwise_pair, names_of_two]
  decide

/-- Two parameters that swap their names: the first entry is refused because of the second
parameter, and the second because of the first. -/
theorem swap_does_not_land :
    let renames : List ParamRename := [⟨1, "b", ""⟩, ⟨2, "a", ""⟩]
    RenamesOf namedVariables twoParameters renames ∧
      (applyParameters variableLibrary noTypes ∅ twoParameters (renames.map CheckinJson.paramRenameEntry)).map
        (fun applied => applied.program.items) = some twoParameters.items ∧
      ¬AllLand namedVariables noTypes ∅ twoParameters renames := by
  intro renames
  have kept : (applyParameters variableLibrary noTypes ∅ twoParameters
      (renames.map CheckinJson.paramRenameEntry)).map (fun applied => applied.program.lookup 1) =
        some (some "a") := by decide +kernel
  refine ⟨renames_of_two (by decide) (by decide), by decide +kernel, ?_⟩
  rintro ⟨applied, ran, land⟩
  rw [ran] at kept
  have first : applied.program.lookup 1 = some "b" := land ⟨1, "b", ""⟩ List.mem_cons_self
  rw [Option.map_some, first] at kept
  exact absurd kept (by decide)

end GhidraBridge.VariableRenames
