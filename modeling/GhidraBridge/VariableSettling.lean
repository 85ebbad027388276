import GhidraBridge.FunctionPasses
import GhidraBridge.Lib.Settle

/-! The variables of a function, named twice by the same records. A record names its
variable as long as the name there looks made up. Which variable that is depends on
the variables listed alone, and which records go through on the names alone, so the
types only matter for those that go through again. -/
namespace GhidraBridge.VariableSettling
open Lib SyncEngine FunctionPasses

/-- The variable a record is for, among those a function lists. -/
def aimedAt (parameters listed : List Variable) (param : GhidraParameter) : Option Variable :=
  if param.isParam then
    if 0 ≤ param.ordinal then parameters[param.ordinal.toNatClampNeg]? else none
  else listed.find? fun var => var.type = .stack && var.storage.toInt32 = param.ordinal

/-- The names a record replaces. -/
def replaces (param : GhidraParameter) (name : String) : Bool :=
  if param.isParam then isAutoGenParam name else isAutoGenLocal name

/-- The variables listed after a record: a parameter that was not listed has no name,
and is. -/
def listing (parameters listed : List Variable) (param : GhidraParameter) : List Variable :=
  match aimedAt parameters listed param with
  | some var => if var ∈ listed then listed else var :: listed
  | none => listed

/-- The records for a variable, in the order they come. -/
def recordsFor (parameters : List Variable) (var : Variable) :
    List Variable → List GhidraParameter → List GhidraParameter
  | _, [] => []
  | listed, param :: rest =>
    let later := recordsFor parameters var (listing parameters listed param) rest
    if aimedAt parameters listed param = some var then param :: later else later

/-- The records that name a variable, from the name it has. -/
def naming (name : String) (records : List GhidraParameter) : List GhidraParameter :=
  Settle.through replaces GhidraParameter.name name records

/-- Name and type as the records see them. -/
def seen (held : Option VariableNameAndType) : String × Option BNType :=
  ((held.map VariableNameAndType.name).getD "", held.bind VariableNameAndType.type)

section
variable (types : BinaryView) (parameters : List Variable)

theorem namedVariable_eq (param : GhidraParameter) (vars : Table Variable VariableNameAndType) :
    namedVariable param parameters vars =
      (aimedAt parameters vars.keys param).bind fun var =>
        if replaces param (seen (vars.lookup var)).1 then some (var, (seen (vars.lookup var)).2) else none := by
  unfold namedVariable aimedAt replaces
  by_cases isParam : param.isParam = true
  · simp only [if_pos isParam]
    split
    · rfl
    · rfl
  · simp only [if_neg isParam]
    rw [Table.find?_keys]
    cases found : vars.items.find? fun entry =>
        entry.1.type = .stack && entry.1.storage.toInt32 = param.ordinal with
    | none => rfl
    | some entry =>
      have held : vars.lookup entry.1 = some entry.2 := Table.mem_items.mp (List.mem_of_find?_eq_some found)
      rw [Option.map_some, Option.bind_some, Option.bind_some, held]
      rfl

theorem nameVariable_lookup (vars : Table Variable VariableNameAndType) (param : GhidraParameter) (var : Variable) :
    seen ((nameVariable types parameters vars param).lookup var) =
      if aimedAt parameters vars.keys param = some var then
        Settle.relabel replaces GhidraParameter.name (fun param => resolveTypeName types param.typeName)
          (seen (vars.lookup var)) param
      else seen (vars.lookup var) := by
  rw [nameVariable, namedVariable_eq]
  cases aimedAt parameters vars.keys param with
  | none => rfl
  | some aim =>
    rw [Option.bind_some]
    by_cases goes : replaces param (seen (vars.lookup aim)).1 = true
    · rw [if_pos goes]
      dsimp only
      rw [Table.lookup_set]
      by_cases here : var = aim
      · subst here
        rw [if_pos rfl, if_pos rfl, Settle.relabel, if_pos goes]
        rfl
      · rw [if_neg here, if_neg fun same => here (Option.some.inj same).symm]
    · rw [if_neg goes]
      dsimp only
      by_cases here : some aim = some var
      · cases here
        rw [if_pos rfl, Settle.relabel, if_neg goes]
      · rw [if_neg here]

theorem nameVariable_keys (vars : Table Variable VariableNameAndType) (param : GhidraParameter) :
    (nameVariable types parameters vars param).keys = listing parameters vars.keys param := by
  rw [nameVariable, namedVariable_eq, listing]
  cases aimed : aimedAt parameters vars.keys param with
  | none => rfl
  | some aim =>
    rw [Option.bind_some]
    dsimp only
    by_cases there : aim ∈ vars.keys
    · rw [if_pos there]
      split
      · rfl
      · rename_i var current given
        split at given
        · cases given
          exact Table.keys_set_of_mem (AList.mem_keys.mpr there) _
        · cases given
    · have unnamed : vars.lookup aim = none := AList.lookup_eq_none.mpr fun held => there (AList.mem_keys.mp held)
      have goes : replaces param (seen (vars.lookup aim)).1 = true := by
        rw [unnamed, replaces]
        split <;> rfl
      rw [if_neg there, if_pos goes]
      exact Table.keys_set_of_not_mem (fun held => there (AList.mem_keys.mp held)) _

theorem foldl_nameVariable_keys (records : List GhidraParameter) (vars : Table Variable VariableNameAndType) :
    (records.foldl (nameVariable types parameters) vars).keys = records.foldl (listing parameters) vars.keys := by
  induction records generalizing vars with
  | nil => rfl
  | cons param rest ih => rw [List.foldl_cons, ih, nameVariable_keys, List.foldl_cons]

/-- What the records make of one variable. -/
theorem foldl_nameVariable_lookup (records : List GhidraParameter) (vars : Table Variable VariableNameAndType)
    (var : Variable) :
    seen ((records.foldl (nameVariable types parameters) vars).lookup var) =
      (recordsFor parameters var vars.keys records).foldl
        (Settle.relabel replaces GhidraParameter.name fun param => resolveTypeName types param.typeName)
        (seen (vars.lookup var)) := by
  induction records generalizing vars with
  | nil => rfl
  | cons param rest ih =>
    rw [List.foldl_cons, ih, nameVariable_lookup, nameVariable_keys, recordsFor]
    by_cases here : aimedAt parameters vars.keys param = some var
    · rw [if_pos here, if_pos here, List.foldl_cons]
    · rw [if_neg here, if_neg here]

variable {parameters}

theorem mem_of_aimedAt {listed : List Variable} {param : GhidraParameter} {var : Variable}
    (isLocal : ¬param.isParam = true) (aimed : aimedAt parameters listed param = some var) : var ∈ listed := by
  rw [aimedAt, if_neg isLocal] at aimed
  exact List.mem_of_find?_eq_some aimed

theorem mem_listing {listed : List Variable} {var : Variable} (there : var ∈ listed) (param : GhidraParameter) :
    var ∈ listing parameters listed param := by
  unfold listing
  split
  · split
    · exact there
    · exact List.mem_cons_of_mem _ there
  · exact there

theorem listing_fixed {listed : List Variable} {param : GhidraParameter}
    (aimed : ∀ var, aimedAt parameters listed param = some var → var ∈ listed) :
    listing parameters listed param = listed := by
  unfold listing
  split
  · rename_i var found
    exact if_pos (aimed var found)
  · rfl

/-- Once the records have run, their variables are listed. -/
theorem foldl_listing_twice (records : List GhidraParameter) (listed : List Variable) :
    records.foldl (listing parameters) (records.foldl (listing parameters) listed) =
      records.foldl (listing parameters) listed := by
  have parameter (first second : List Variable) (param : GhidraParameter) (isParam : param.isParam = true) :
      aimedAt parameters first param = aimedAt parameters second param := by
    rw [aimedAt, if_pos isParam, aimedAt, if_pos isParam]
  refine Fold.foldl_fixed fun param member => listing_fixed ?_
  refine @Fold.foldl_establishes (List Variable) GhidraParameter (listing parameters)
    (fun param listed => ∀ var, aimedAt parameters listed param = some var → var ∈ listed)
    (fun listed param var aimed => ?_) (fun listed param other held var aimed => ?_) records listed param member
  · by_cases isParam : param.isParam = true
    · rw [parameter _ listed param isParam] at aimed
      rw [listing, aimed]
      dsimp only
      split
      · assumption
      · exact List.mem_cons_self
    · exact mem_of_aimedAt isParam aimed
  · by_cases isParam : other.isParam = true
    · rw [parameter _ listed other isParam] at aimed
      exact mem_listing (held var aimed) param
    · exact mem_of_aimedAt isParam aimed

end

/-- A variable that stays as it is when the same records run a second time. Of the
records that find a name to replace once more, the last one has to bring the name
that is there, and the last type they resolve to has to be the type that is there. -/
def VariableSettled (early again : BinaryView) (func : BNFunction) (records : List GhidraParameter) (var : Variable) :
    Prop :=
  let listed := records.foldl (listing func.parameterVariables) func.vars.keys
  let first := naming (func.getVariableName var) (recordsFor func.parameterVariables var func.vars.keys records)
  let name := (first.getLast?.map GhidraParameter.name).getD (func.getVariableName var)
  let type :=
    (first.filterMap fun param => resolveTypeName early param.typeName).getLast?.or (func.getVariableType var)
  let second := naming name (recordsFor func.parameterVariables var listed records)
  (∀ param ∈ second.getLast?, param.name = name) ∧
    ∀ given ∈ (second.filterMap fun param => resolveTypeName again param.typeName).getLast?, type = some given

/-- With the same variables listed, two tables are told apart by what the records see. -/
theorem eq_iff_seen {first second : Table Variable VariableNameAndType} (keys : first.keys = second.keys) :
    first = second ↔ ∀ var, seen (first.lookup var) = seen (second.lookup var) := by
  refine ⟨fun same var => by rw [same], fun same => Table.ext_lookup keys fun var => ?_⟩
  have listed : var ∈ first ↔ var ∈ second := by
    rw [AList.mem_keys, keys, AList.mem_keys]
  rw [← AList.lookup_isSome, ← AList.lookup_isSome] at listed
  have here := same var
  cases found : first.lookup var with
  | none =>
    cases held : second.lookup var with
    | none => rfl
    | some _ => simp [found, held] at listed
  | some left =>
    cases held : second.lookup var with
    | none => simp [found, held] at listed
    | some right =>
      obtain ⟨name, type⟩ := left
      obtain ⟨name', type'⟩ := right
      rw [found, held] at here
      have both : (name, type) = (name', type') := here
      cases both
      rfl

theorem named_twice_iff (early again : BinaryView) (func : BNFunction) (records : List GhidraParameter) :
    records.foldl (nameVariable again func.parameterVariables)
          (records.foldl (nameVariable early func.parameterVariables) func.vars) =
        records.foldl (nameVariable early func.parameterVariables) func.vars ↔
      ∀ var, VariableSettled early again func records var := by
  have keys : (records.foldl (nameVariable again func.parameterVariables)
        (records.foldl (nameVariable early func.parameterVariables) func.vars)).keys =
      (records.foldl (nameVariable early func.parameterVariables) func.vars).keys := by
    rw [foldl_nameVariable_keys, foldl_nameVariable_keys, foldl_listing_twice]
  rw [eq_iff_seen keys]
  refine forall_congr' fun var => ?_
  rw [foldl_nameVariable_lookup, Settle.foldl_relabel_eq_iff, foldl_nameVariable_keys, foldl_nameVariable_lookup,
    Settle.foldl_relabel]
  exact Iff.rfl

end GhidraBridge.VariableSettling
