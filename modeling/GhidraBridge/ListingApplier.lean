import GhidraBridge.DataTypeApplier

/-! The arrays of a check-in that change symbols, variables, data and signatures
(`ProgramApplier.java`). What a call into the program does is Ghidra's own and
given by a library; nothing stands for an exception. The loops swallow most of
them, so an entry can end half done. -/
namespace GhidraBridge
open Lib

/-- `getAsBoolean`; a text is true if it says so. -/
def Json.getAsBoolean : Json → Option Bool
  | .bool value => some value
  | .str text => some (text.toLower = "true")
  | .int _ | .float _ => some false
  | _ => none

/-- Ghidra's part in the arrays: calls on a program of its own type. -/
structure ProgramLibrary (space : AddressSpace) (P : Type) where
  /-- `getSymbol(key)` finds one. -/
  hasSymbol : P → Int64 → Bool
  setName : P → Int64 → String → Option P
  createLabel : P → space.Address → String → Option P
  /-- The object of the symbol is a `Variable`. -/
  isVariable : P → Int64 → Bool
  setVariableType : P → Int64 → DataTypeRef → Option P
  /-- `getFunctionAt` finds one. -/
  hasFunctionAt : P → space.Address → Bool
  /-- The number of `getParameters`. -/
  countParameters : P → space.Address → Option Nat
  setParameterName : P → space.Address → Nat → String → Option P
  setParameterType : P → space.Address → Nat → DataTypeRef → Option P
  /-- `addParameter`; a parameter without a type has `DataType.DEFAULT`. -/
  addParameter : P → space.Address → String → Option DataTypeRef → Option P
  /-- The end of the data `getDataAt` finds. -/
  getDataAt : P → space.Address → Option space.Address
  clearCodeUnits : P → space.Address → space.Address → Option P
  createData : P → space.Address → DataTypeRef → Option P
  /-- `getFunction(key)` finds one. -/
  hasFunction : P → Int64 → Option Bool
  setReturnType : P → Int64 → DataTypeRef → Option P
  callingConventions : P → List String
  setCallingConvention : P → Int64 → String → Option P

/-- A program and the number of entries applied to it. -/
structure Counted (P : Type) where
  program : P
  count : Nat := 0

/-- An entry whose last call may throw: it counts if the call does not. -/
def Counted.attempt {P : Type} (applied : Counted P) (result : Option P) : Counted P :=
  match result with
  | some program => { program, count := applied.count + 1 }
  | none => applied

namespace ProgramApplier
variable {space : AddressSpace} {P : Type} (lib : ProgramLibrary space P) (types : TypeLibrary)
  (manager : DataTypeManager)

/-! ## Symbols -/

def labelAt (name : String) (addr : space.Address) (applied : Counted P) : Counted P :=
  applied.attempt (lib.createLabel applied.program addr name)

/-- One entry of the symbols array: a rename by key, or a new label by address. -/
def applySymbol (applied : Counted P) (el : Json) : Option (Counted P) :=
  if el.isObject = false then none
  else do
    let name ← el.getStr "name" ""
    if name = "" then return applied
    match el.get? "key", el.get? "va" with
    | some member, _ =>
      match member.getAsLong with
      | none => return applied
      | some key =>
        if lib.hasSymbol applied.program key = false then return applied
        return applied.attempt (lib.setName applied.program key name)
    | none, some member =>
      match member.getAsString.bind parseHexLong with
      | none => return applied
      | some va => return (space.getAddress va).elim applied fun addr => labelAt lib name addr applied
    | none, none => return applied

def applySymbols (program : P) (symbols : List Json) : Option (Counted P) :=
  symbols.foldlM (applySymbol lib) { program }

/-! ## Parameters -/

/-- A type that is set if it resolves; a name that throws ends the entry. -/
def resolveOptional (c : Json) (key : String) : Option (Option DataTypeRef) :=
  match c.get? key with
  | none => some none
  | some member => member.getAsString.bind (resolveDataType types manager)

/-- A variable that has a symbol: its name, then its type. -/
def renameVariable (key : Int64) (name : String) (c : Json) (applied : Counted P) : Counted P :=
  if lib.hasSymbol applied.program key = false then applied
  else
    match lib.setName applied.program key name with
    | none => applied
    | some program =>
      let typed := (c.get? "type_name").isSome && lib.isVariable program key
      match (if typed then resolveOptional types manager c "type_name" else some none) with
      | none => { applied with program }
      | some found =>
        { program := (found.bind fun type => lib.setVariableType program key type).getD program
          count := applied.count + 1 }

/-- The parameter of an ordinal of the function at an address, or a new one behind the
last. -/
def parameterAt (ordinal : Int32) (name : String) (c : Json) (addr : space.Address) (applied : Counted P) :
    Counted P :=
  if lib.hasFunctionAt applied.program addr = false then applied
  else
    match resolveOptional types manager c "type_name", lib.countParameters applied.program addr with
    | some type, some count =>
      if 0 ≤ ordinal ∧ ordinal.toInt < count then
        match lib.setParameterName applied.program addr ordinal.toInt.toNat name with
        | none => applied
        | some program =>
          { program := (type.bind fun type =>
              lib.setParameterType program addr ordinal.toInt.toNat type).getD program
            count := applied.count + 1 }
      else
        { program := (lib.addParameter applied.program addr name type).getD applied.program
          count := applied.count + 1 }
    | _, _ => applied

/-- One entry of the parameters array. A register local has no storage Ghidra would
know and is skipped. -/
def applyParameter (applied : Counted P) (el : Json) : Option (Counted P) :=
  if el.isObject = false then none
  else do
    let name ← el.getStr "name" ""
    if name = "" then return applied
    match el.get? "key", el.get? "func_va", el.get? "ordinal" with
    | some member, _, _ =>
      return (member.getAsLong).elim applied fun key => renameVariable lib types manager key name el applied
    | none, some funcVa, some ordinal =>
      let isLocal := match el.get? "is_local" with
        | some member => member.getAsBoolean
        | none => some false
      match isLocal, funcVa.getAsString.bind parseHexLong, ordinal.getAsInt with
      | some false, some va, some ordinal =>
        return (space.getAddress va).elim applied fun addr =>
          parameterAt lib types manager ordinal name el addr applied
      | _, _, _ => return applied
    | none, _, _ => return applied

def applyParameters (program : P) (paramRenames : List Json) : Option (Counted P) :=
  paramRenames.foldlM (applyParameter lib types manager) { program }

/-! ## Data items -/

/-- Take out the data that is there. -/
def clearAt (addr : space.Address) (program : P) : Option P :=
  match lib.getDataAt program addr with
  | none => some program
  | some last => lib.clearCodeUnits program addr last

/-- What a decoded entry does at its address. -/
def dataItemAt (op : String) (el : Json) (addr : space.Address) (applied : Counted P) : Counted P :=
  if op = "delete" then applied.attempt (clearAt lib addr applied.program)
  else
    match (el.getStr "type_name" "").bind (resolveDataType types manager) with
    | some (some type) =>
      match clearAt lib addr applied.program with
      | none => applied
      | some cleared => { applied with program := cleared }.attempt (lib.createData cleared addr type)
    | _ => applied

/-- One entry of the data items array. A missing address counts as negative. -/
def applyDataItem (applied : Counted P) (el : Json) : Option (Counted P) :=
  if el.isObject = false then none
  else do
    let op ← el.getStr "op" "add"
    let va ← match el.get? "addr" with
      | some member => member.getAsString.bind parseHexLong
      | none => some (-1)
    if va.toInt64 < 0 then return applied
    return (space.getAddress va).elim applied fun addr => dataItemAt lib types manager op el addr applied

def applyDataItems (program : P) (dataItems : List Json) : Option (Counted P) :=
  dataItems.foldlM (applyDataItem lib types manager) { program }

/-! ## Function signatures -/

/-- The convention of a name, in the compiler specification's spelling. -/
def knownConvention (known : List String) (cc : String) : Option String :=
  if cc ∈ known then some cc else if "__" ++ cc ∈ known then some ("__" ++ cc) else none

/-- One entry of the signatures array; it counts if the result type or the convention
was set. -/
def applyFuncSig (applied : Counted P) (el : Json) : Option (Counted P) :=
  if el.isObject = false then none
  else do
    let key ← (← el.get? "key").getAsLong
    if lib.hasFunction applied.program key ≠ some true then return applied
    let retType ← match el.get? "ret_type" with
      | some member => member.getAsString.bind (resolveDataType types manager)
      | none => some none
    let typed := retType.bind fun type => lib.setReturnType applied.program key type
    let program := typed.getD applied.program
    let cc ← el.getStr "cc" ""
    let convention := if cc = "" then none else
      (knownConvention (lib.callingConventions program) cc).bind fun name => lib.setCallingConvention program key name
    return {
      program := convention.getD program
      count := applied.count + (if typed.isSome || convention.isSome then 1 else 0) }

def applyFuncSigs (program : P) (changes : List Json) : Option (Counted P) :=
  changes.foldlM (applyFuncSig lib types manager) { program }

end ProgramApplier
end GhidraBridge
