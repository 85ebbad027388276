import GhidraBridge.WritebackMaps
import GhidraBridge.TypeReadback
import GhidraBridge.Lib.Leads

/-! The import seen from one function. A pass that works on functions changes each of
them by itself, by the records that reach it: the function that leads its address
those of the address, and every function the equates at the addresses it contains.
Each pass writes fields of its own. -/
namespace GhidraBridge
open Lib

namespace BinaryView

theorem modifyFirst_congr {found : BNFunction → Bool} {change other : BNFunction → BNFunction}
    {functions : List BNFunction} (same : ∀ func, functions.find? found = some func → change func = other func) :
    modifyFirst found change functions = modifyFirst found other functions := by
  induction functions with
  | nil => rfl
  | cons func rest ih =>
    unfold modifyFirst
    by_cases here : found func = true
    · rw [if_pos here, if_pos here, same func (List.find?_cons_of_pos here)]
    · rw [if_neg here, if_neg here, ih fun other there => same other ((List.find?_cons_of_neg here).trans there)]

theorem modifyFirst_self {found : BNFunction → Bool} {change : BNFunction → BNFunction} {functions : List BNFunction}
    (same : ∀ func, functions.find? found = some func → change func = func) :
    modifyFirst found change functions = functions := by
  have kept : modifyFirst found (fun func => func) functions = functions := by
    clear same
    induction functions with
    | nil => rfl
    | cons func rest ih =>
      unfold modifyFirst
      split
      · rfl
      · rw [ih]
  exact (modifyFirst_congr same).trans kept

theorem modifyFirst_of_missing {view : BinaryView} {addr : UInt64} (missing : view.functionAt addr = none)
    (change : BNFunction → BNFunction) :
    modifyFirst (fun func => func.start = addr) change view.functions = view.functions := by
  refine modifyFirst_self fun func found => ?_
  rw [functionAt, found] at missing
  cases missing

/-- The part of the view that decides how type names resolve. -/
def scope (view : BinaryView) : BinaryView := { view.typing with dataVariables := ∅ }

theorem scope_eq_of_typing {first second : BinaryView} (same : first.typing = second.typing) :
    first.scope = second.scope := by
  rw [scope, scope, same]

theorem resolveChars_scope (view : BinaryView) (name : List Char) (hintSize : Int32) :
    resolveChars view.scope name hintSize = resolveChars view name hintSize := by
  have named (name : String) : view.scope.getTypeByName name = view.getTypeByName name := rfl
  have wide : view.scope.addressSize = view.addressSize := rfl
  -- the recursion is on the base of a pointer or the element of an array, both shorter
  induction length : name.length using Nat.strong_induction_on generalizing name hintSize with
  | _ size ih =>
    subst length
    rw [GhidraBridge.resolveChars_eq, GhidraBridge.resolveChars_eq view, named, wide]
    cases pointer : pointee? name with
    | some base =>
      dsimp only
      rw [ih base.length (pointee_shorter pointer) base 0 rfl]
    | none =>
      cases array : element? name with
      | none => rfl
      | some parts =>
        dsimp only [Option.bind_some]
        rw [ih parts.1.length (element_shorter array) parts.1 0 rfl]

theorem resolveTypeName_scope (view : BinaryView) (typeName : String) (hintSize : Int32) :
    resolveTypeName view.scope typeName hintSize = resolveTypeName view typeName hintSize :=
  resolveChars_scope view typeName.toList hintSize

theorem resolveTypeName_congr {first second : BinaryView} (same : first.scope = second.scope) (typeName : String)
    (hintSize : Int32) : resolveTypeName first typeName hintSize = resolveTypeName second typeName hintSize := by
  rw [← resolveTypeName_scope first, same, resolveTypeName_scope]

end BinaryView

namespace FunctionPasses
open SyncEngine WritebackMaps BinaryView

/-- A change of the function that leads a place, if there is one. -/
def atLead (place : Option UInt64) (change : BNFunction → BNFunction) (lead : Bool) (func : BNFunction) :
    BNFunction :=
  if lead = true ∧ place = some func.start then change func else func

theorem atLead_start {change : BNFunction → BNFunction} (kept : ∀ func, (change func).start = func.start)
    (place : Option UInt64) (lead : Bool) (func : BNFunction) :
    (atLead place change lead func).start = func.start := by
  unfold atLead
  split
  · exact kept func
  · rfl

private theorem map_leads_of_seen {addr : UInt64} {change : BNFunction → BNFunction} {seen : List UInt64}
    (there : addr ∈ seen) (functions : List BNFunction) :
    ((Leads.leads BNFunction.start seen functions).map fun entry => atLead (some addr) change entry.1 entry.2) =
      functions := by
  induction functions generalizing seen with
  | nil => rfl
  | cons func rest ih =>
    have kept : atLead (some addr) change (decide (func.start ∉ seen)) func = func := by
      refine if_neg ?_
      rintro ⟨fresh, here⟩
      cases here
      exact of_decide_eq_true fresh there
    rw [Leads.leads, List.map_cons, kept, ih (List.mem_cons_of_mem _ there)]

private theorem map_leads_of_fresh {addr : UInt64} {change : BNFunction → BNFunction} {seen : List UInt64}
    (fresh : addr ∉ seen) (functions : List BNFunction) :
    ((Leads.leads BNFunction.start seen functions).map fun entry => atLead (some addr) change entry.1 entry.2) =
      modifyFirst (fun func => func.start = addr) change functions := by
  induction functions generalizing seen with
  | nil => rfl
  | cons func rest ih =>
    rw [Leads.leads, List.map_cons, modifyFirst]
    by_cases here : func.start = addr
    · have changed : atLead (some addr) change (decide (func.start ∉ seen)) func = change func := by
        refine if_pos ⟨?_, congrArg some here.symm⟩
        rw [here]
        exact decide_eq_true fresh
      rw [if_pos (decide_eq_true here), changed, map_leads_of_seen (List.mem_cons.mpr (.inl here.symm))]
    · have kept : atLead (some addr) change (decide (func.start ∉ seen)) func = func := by
        refine if_neg ?_
        rintro ⟨_, same⟩
        cases same
        exact here rfl
      have later : addr ∉ func.start :: seen := by
        simp only [List.mem_cons, not_or]
        exact ⟨Ne.symm here, fresh⟩
      rw [if_neg (by simpa using here), kept, ih later]

theorem modifyFirst_eq_each (addr : UInt64) (change : BNFunction → BNFunction) (functions : List BNFunction) :
    modifyFirst (fun func => func.start = addr) change functions =
      Leads.each BNFunction.start (atLead (some addr) change) functions :=
  (map_leads_of_fresh List.not_mem_nil functions).symm

/-! ## The steps on one function -/

/-- What a plate leaves of a function's comment. -/
def plateText (shown plate : String) : String :=
  if plate ≠ "" ∧ (shown = "" ∨ shown = plate) then plate else shown

theorem applyComment_functions (rebase : UInt64) (s : ImportState) (comm : GhidraComment) :
    (applyComment rebase s comm).view.functions =
      Leads.each BNFunction.start
        (atLead (some (comm.addr + rebase)) fun func => { func with comment := plateText func.comment comm.plate })
        s.view.functions := by
  have addressed : (applyAddressComment (comm.addr + rebase) comm
      { s with result := recordCommentKey (comm.addr + rebase) comm s.result }).view.functions = s.view.functions := by
    rw [applyAddressComment_frame]
  rw [← modifyFirst_eq_each, applyComment, ← addressed]
  generalize applyAddressComment _ _ _ = s
  unfold applyPlateComment
  split
  · rename_i empty
    refine (modifyFirst_self fun func _ => ?_).symm
    simp [plateText, empty]
  · rename_i filled
    split
    · rename_i missing
      exact (modifyFirst_of_missing missing _).symm
    · rename_i func found
      rw [functionAt] at found
      dsimp only
      split
      · rename_i writes
        refine modifyFirst_congr fun other there => ?_
        rw [found] at there
        cases there
        rw [plateText, if_pos ⟨filled, writes⟩]
      · rename_i differs
        refine (modifyFirst_self fun other there => ?_).symm
        rw [found] at there
        cases there
        rw [plateText, if_neg fun both => differs both.2]

theorem atLead_none (change : BNFunction → BNFunction) : atLead none change = fun _ func => func := by
  funext lead func
  simp [atLead]

theorem each_atLead_each {first : BNFunction → BNFunction} (kept : ∀ func, (first func).start = func.start)
    (second : BNFunction → BNFunction) (place : Option UInt64) (functions : List BNFunction) :
    Leads.each BNFunction.start (atLead place second) (Leads.each BNFunction.start (atLead place first) functions) =
      Leads.each BNFunction.start (atLead place fun func => second (first func)) functions := by
  rw [Leads.each_each (atLead_start kept place)]
  congr 1
  funext lead func
  by_cases here : lead = true ∧ place = some func.start
  · have still : lead = true ∧ place = some (first func).start := by
      rw [kept]
      exact here
    rw [atLead, atLead, atLead, if_pos here, if_pos still, if_pos here]
  · rw [atLead, atLead, atLead, if_neg here, if_neg here, if_neg here]

/-- The tags of the flags that are set. -/
def flagTags (ff : GhidraFuncFlags) : List (String × String) :=
  (if ff.thunk then [("Ghidra: Thunk", "")] else []) ++ (if ff.noReturn then [("Ghidra: NoReturn", "")] else []) ++
    (if ff.isInline then [("Ghidra: Inline", "")] else [])

def addTags (tags : List (String × String)) (func : BNFunction) : BNFunction := { func with tags := func.tags ++ tags }

theorem addTags_start (tags : List (String × String)) (func : BNFunction) :
    (addTags tags func).start = func.start := rfl

theorem tagFunction_functions (flag : Bool) (tagType : String) (addr : UInt64) (view : BinaryView) :
    (tagFunction flag tagType addr view).functions =
      Leads.each BNFunction.start (atLead (some addr) (addTags (if flag then [(tagType, "")] else [])))
        view.functions := by
  rw [← modifyFirst_eq_each]
  cases flag with
  | false =>
    refine (modifyFirst_self fun func _ => ?_).symm
    rw [if_neg Bool.false_ne_true, addTags, List.append_nil]
  | true =>
    rw [tagFunction, if_pos rfl, getOrCreateTagType_frame]
    rfl

theorem applyFuncFlags_functions (s : ImportState) (ff : GhidraFuncFlags) :
    (applyFuncFlags s ff).view.functions =
      Leads.each BNFunction.start (atLead (s.keyToAddr.lookup ff.key) (addTags (flagTags ff))) s.view.functions := by
  unfold applyFuncFlags
  split
  · rename_i unknown
    rw [unknown, atLead_none]
    exact (Leads.each_self s.view.functions).symm
  · rename_i addr known
    rw [known]
    split
    · rename_i missing
      rw [← modifyFirst_eq_each]
      exact (modifyFirst_of_missing (Option.isNone_iff_eq_none.mp missing) _).symm
    · dsimp only
      rw [tagFunction_functions, tagFunction_functions, tagFunction_functions, each_atLead_each (addTags_start _),
        each_atLead_each (addTags_start _)]
      simp only [addTags, flagTags, List.append_assoc]
      rfl

/-! The equates: a site is a reference together with its equate. -/

def sitesOf (eq : GhidraEquate) : List (GhidraEquate × GhidraEquateRef) :=
  if eq.name = "" then [] else eq.refs.map fun ref => (eq, ref)

def siteKey (rebase : UInt64) (site : GhidraEquate × GhidraEquateRef) : UInt64 × UInt64 × UInt64 :=
  (site.2.addr + rebase, site.1.value.toUInt64, site.2.opIndex.toInt64.toUInt64)

def siteType (site : GhidraEquate × GhidraEquateRef) : DisplayType := .enumeration (equateTypeId site.1.id)

def showSite (rebase : UInt64) (func : BNFunction) (site : GhidraEquate × GhidraEquateRef) : BNFunction :=
  if func.contains (site.2.addr + rebase) then
    { func with displayTypes := func.displayTypes.set (siteKey rebase site) (siteType site) }
  else func

theorem foldl_bindEquate_functions (rebase : UInt64) (eq : GhidraEquate) (refs : List GhidraEquateRef)
    (view : BinaryView) :
    (refs.foldl (bindEquate rebase eq) view).functions =
      view.functions.map fun func => (refs.map fun ref => (eq, ref)).foldl (showSite rebase) func := by
  induction refs generalizing view with
  | nil => exact (List.map_id _).symm
  | cons ref rest ih =>
    rw [List.foldl_cons, ih, bindEquate, modifyFunctionsContaining, List.map_map]
    rfl

/-- A type can be found by the id it was just given. -/
theorem getTypeById_defineType (view : BinaryView) (id name : String) (definition : TypeDefinition) :
    ((view.defineType id name definition).getTypeById id).isSome = true := by
  have there : (name, RegisteredType.mk id definition) ∈ (view.defineType id name definition).autoTypes.items := by
    refine Table.mem_items.mpr ?_
    rw [defineType, Table.lookup_set, if_pos rfl]
  rw [getTypeById, Option.isSome_map, List.find?_isSome]
  exact ⟨_, List.mem_append_right _ there, by simp⟩

theorem applyEquate_functions (rebase : UInt64) (view : BinaryView) (eq : GhidraEquate) :
    (applyEquate rebase view eq).functions =
      Leads.each BNFunction.start (fun _ func => (sitesOf eq).foldl (showSite rebase) func) view.functions := by
  rw [Leads.each_map, applyEquate, sitesOf]
  by_cases unnamed : eq.name = ""
  · rw [if_pos (.inl unnamed), if_pos unnamed]
    exact (List.map_id _).symm
  · rw [if_neg unnamed]
    by_cases loose : eq.refs = []
    · rw [if_pos (.inr loose), loose]
      exact (List.map_id _).symm
    · have found := getTypeById_defineType view (equateTypeId eq.id) eq.name
        (.enumeration 4 [⟨eq.name, eq.value.toUInt64⟩])
      rw [if_neg (not_or.mpr ⟨unnamed, loose⟩)]
      dsimp only
      rw [Option.isNone_eq_false_iff.mpr found, if_neg Bool.false_ne_true, foldl_bindEquate_functions]
      rfl

theorem foldl_showSite (rebase : UInt64) (sites : List (GhidraEquate × GhidraEquateRef)) (func : BNFunction) :
    sites.foldl (showSite rebase) func =
      { func with
        displayTypes :=
          func.displayTypes.writeAll (siteKey rebase) siteType
            (sites.filter fun site => func.contains (site.2.addr + rebase)) } := by
  induction sites generalizing func with
  | nil => rfl
  | cons site rest ih =>
    rw [List.foldl_cons, ih, showSite, List.filter_cons]
    split
    · rfl
    · rfl

/-! The parameters and the local variables. -/

/-- The variable a record names among those of a function, with what its type stays if
the record's type does not resolve. A name somebody chose is left alone. -/
def namedVariable (param : GhidraParameter) (parameters : List Variable)
    (vars : Table Variable VariableNameAndType) : Option (Variable × Option BNType) :=
  if param.isParam then
    if 0 ≤ param.ordinal then
      parameters[param.ordinal.toNatClampNeg]?.bind fun var =>
        if isAutoGenParam (((vars.lookup var).map VariableNameAndType.name).getD "") then
          some (var, (vars.lookup var).bind VariableNameAndType.type)
        else none
    else none
  else
    (vars.items.find? fun entry => entry.1.type = .stack && entry.1.storage.toInt32 = param.ordinal).bind fun entry =>
      if isAutoGenLocal entry.2.name then some (entry.1, entry.2.type) else none

def nameVariable (types : BinaryView) (parameters : List Variable) (vars : Table Variable VariableNameAndType)
    (param : GhidraParameter) : Table Variable VariableNameAndType :=
  match namedVariable param parameters vars with
  | none => vars
  | some (var, current) => vars.set var ⟨param.name, (resolveTypeName types param.typeName).or current⟩

theorem applyParameter_functions (rebase : UInt64) (view : BinaryView) (param : GhidraParameter) :
    (applyParameter rebase view param).functions =
      Leads.each BNFunction.start
        (atLead (some (param.funcAddr + rebase)) fun func =>
          { func with vars := nameVariable view func.parameterVariables func.vars param })
        view.functions := by
  rw [← modifyFirst_eq_each]
  unfold applyParameter
  dsimp only
  split
  · rename_i missing
    exact (modifyFirst_of_missing missing _).symm
  · rename_i func found
    rw [functionAt] at found
    -- the record changes the function found, or nothing
    have changes (var : Variable) (current : Option BNType)
        (named : namedVariable param func.parameterVariables func.vars = some (var, current)) :
        (applyVariable view (param.funcAddr + rebase) var current param).functions =
          modifyFirst (fun func => func.start = param.funcAddr + rebase)
            (fun func => { func with vars := nameVariable view func.parameterVariables func.vars param })
            view.functions := by
      refine modifyFirst_congr fun other there => ?_
      rw [found] at there
      cases there
      rw [nameVariable, named]
      rfl
    have keeps (unnamed : namedVariable param func.parameterVariables func.vars = none) :
        view.functions =
          modifyFirst (fun func => func.start = param.funcAddr + rebase)
            (fun func => { func with vars := nameVariable view func.parameterVariables func.vars param })
            view.functions := by
      refine (modifyFirst_self fun other there => ?_).symm
      rw [found] at there
      cases there
      rw [nameVariable, unnamed]
    split
    · rename_i isParam
      split
      · rename_i inside
        split
        · rename_i missing
          exact keeps (by simp [namedVariable, isParam, missing])
        · rename_i var listed
          split
          · rename_i auto
            refine changes var _ ?_
            rw [BNFunction.getVariableName] at auto
            simp [namedVariable, isParam, inside, listed, auto, BNFunction.getVariableType]
          · rename_i chosen
            rw [BNFunction.getVariableName] at chosen
            exact keeps (by simp [namedVariable, isParam, listed, chosen])
      · rename_i outside
        exact keeps (by simp [namedVariable, isParam, outside])
    · rename_i isLocal
      split
      · rename_i missing
        exact keeps (by simp only [namedVariable, isLocal, missing]; rfl)
      · rename_i var nat listed
        split
        · rename_i auto
          refine changes var nat.type ?_
          simp only [namedVariable, isLocal, listed]
          simp [auto]
        · rename_i chosen
          refine keeps ?_
          simp only [namedVariable, isLocal, listed]
          simp [chosen]

/-! The signatures. -/

def newConvention (conventions : List String) (sig : GhidraFuncSig) : Option String :=
  if sig.callingConvention ≠ "" ∧ sig.callingConvention ∈ conventions then some sig.callingConvention else none

def newReturnType (types : BinaryView) (sig : GhidraFuncSig) : Option BNType :=
  if sig.returnTypeName = "" then none else resolveTypeName types sig.returnTypeName

def giveConvention (sig : GhidraFuncSig) (func : BNFunction) : BNFunction :=
  { func with
    callingConvention := (newConvention func.conventions sig).or func.callingConvention
    hasUserType := (newConvention func.conventions sig).isSome || func.hasUserType }

theorem giveConvention_start (sig : GhidraFuncSig) (func : BNFunction) :
    (giveConvention sig func).start = func.start := rfl

def giveReturnType (types : BinaryView) (sig : GhidraFuncSig) (func : BNFunction) : BNFunction :=
  { func with
    returnType := (newReturnType types sig).or func.returnType
    hasUserType := (newReturnType types sig).isSome || func.hasUserType }

theorem applyConvention_functions (addr : UInt64) (sig : GhidraFuncSig) (view : BinaryView) :
    (applyConvention addr sig.callingConvention view).functions =
      Leads.each BNFunction.start (atLead (some addr) (giveConvention sig)) view.functions := by
  rw [← modifyFirst_eq_each]
  unfold applyConvention
  split
  · rename_i missing
    exact (modifyFirst_of_missing missing _).symm
  · rename_i func found
    rw [functionAt] at found
    split
    · rename_i offered
      refine modifyFirst_congr fun other there => ?_
      rw [found] at there
      cases there
      rw [giveConvention, newConvention, if_pos offered]
      rfl
    · rename_i unknown
      refine (modifyFirst_self fun other there => ?_).symm
      rw [found] at there
      cases there
      rw [giveConvention, newConvention, if_neg unknown]
      rfl

theorem applyReturnType_functions (addr : UInt64) (sig : GhidraFuncSig) (view : BinaryView) :
    (applyReturnType addr sig.returnTypeName view).functions =
      Leads.each BNFunction.start (atLead (some addr) (giveReturnType view sig)) view.functions := by
  have keeps (unresolved : newReturnType view sig = none) :
      modifyFirst (fun func => func.start = addr) (giveReturnType view sig) view.functions = view.functions := by
    refine modifyFirst_self fun func _ => ?_
    rw [giveReturnType, unresolved]
    rfl
  rw [← modifyFirst_eq_each]
  unfold applyReturnType
  split
  · rename_i skipped
    rcases skipped with missing | unnamed
    · exact (modifyFirst_of_missing (Option.isNone_iff_eq_none.mp missing) _).symm
    · exact (keeps (if_pos unnamed)).symm
  · rename_i applied
    have named : newReturnType view sig = resolveTypeName view sig.returnTypeName :=
      if_neg fun unnamed => applied (.inr unnamed)
    split
    · rename_i unresolved
      exact (keeps (named.trans unresolved)).symm
    · rename_i type resolved
      refine modifyFirst_congr fun func _ => ?_
      rw [giveReturnType, named, resolved]
      rfl

theorem applyFuncSig_functions (keyToAddr : Table Int64 UInt64) (view : BinaryView) (sig : GhidraFuncSig) :
    (applyFuncSig keyToAddr view sig).functions =
      Leads.each BNFunction.start
        (atLead (keyToAddr.lookup sig.key) fun func => giveReturnType view sig (giveConvention sig func))
        view.functions := by
  unfold applyFuncSig
  split
  · rename_i unknown
    rw [unknown, atLead_none]
    exact (Leads.each_self view.functions).symm
  · rename_i addr known
    have kept : (applyConvention addr sig.callingConvention view).scope = view.scope := by
      unfold applyConvention
      split
      · rfl
      · split <;> rfl
    have same : newReturnType (applyConvention addr sig.callingConvention view) sig = newReturnType view sig := by
      rw [newReturnType, newReturnType, resolveTypeName_congr kept]
    have resolved : giveReturnType (applyConvention addr sig.callingConvention view) sig =
        giveReturnType view sig := by
      funext func
      rw [giveReturnType, same, giveReturnType]
    rw [known, applyReturnType_functions, applyConvention_functions, resolved,
      each_atLead_each (giveConvention_start sig)]

/-! ## The passes on one function -/

/-- The records that reach a function. -/
def reaching {R : Type} (place : R → Option UInt64) (records : List R) (lead : Bool) (start : UInt64) : List R :=
  records.filter fun r => lead && decide (place r = some start)

/-- No record reaches a function that does not lead its address. -/
theorem reaching_false {R : Type} (place : R → Option UInt64) (records : List R) (start : UInt64) :
    reaching place records false start = [] :=
  List.filter_eq_nil_iff.mpr fun _ _ => Bool.false_ne_true

theorem foldl_atLead {R : Type} (place : R → Option UInt64) {step : R → BNFunction → BNFunction}
    (kept : ∀ r func, (step r func).start = func.start) (records : List R) (lead : Bool) (func : BNFunction) :
    records.foldl (fun func r => atLead (place r) (step r) lead func) func =
      (reaching place records lead func.start).foldl (fun func r => step r func) func := by
  induction records generalizing func with
  | nil => rfl
  | cons r rest ih =>
    rw [List.foldl_cons, ih, atLead_start (kept r), reaching, reaching, List.filter_cons]
    by_cases here : lead = true ∧ place r = some func.start
    · rw [atLead, if_pos here]
      simp [here]
    · rw [atLead, if_neg here, if_neg (by simpa using here)]

/-- A pass whose records each change the function that leads their place. -/
theorem foldl_leads {S R : Type} {run : S → R → S} {read : S → List BNFunction} {Inv : S → Prop}
    (place : R → Option UInt64) {step : R → BNFunction → BNFunction}
    (kept : ∀ r func, (step r func).start = func.start)
    (one : ∀ s r, Inv s →
      read (run s r) = Leads.each BNFunction.start (atLead (place r) (step r)) (read s) ∧ Inv (run s r))
    (records : List R) {s : S} (inv : Inv s) :
    read (records.foldl run s) =
      Leads.each BNFunction.start
        (fun lead func => (reaching place records lead func.start).foldl (fun func r => step r func) func)
        (read s) := by
  refine (Leads.foldl_each (fun r => atLead_start (kept r) _) one records inv).trans ?_
  congr 1
  funext lead func
  exact foldl_atLead place kept records lead func

section
variable (rebase : UInt64) (keys : Table Int64 UInt64) (data : GhidraDbExport) (early late : BinaryView)

def platesOf (lead : Bool) (start : UInt64) : List GhidraComment :=
  reaching (fun comm => some (comm.addr + rebase)) data.comments lead start

def flagsOf (lead : Bool) (start : UInt64) : List GhidraFuncFlags :=
  reaching (fun ff => keys.lookup ff.key) data.funcFlags lead start

def parametersOf (lead : Bool) (start : UInt64) : List GhidraParameter :=
  reaching (fun param => some (param.funcAddr + rebase)) data.parameters lead start

def signaturesOf (lead : Bool) (start : UInt64) : List GhidraFuncSig :=
  reaching (fun sig => keys.lookup sig.key) data.funcSigs lead start

def showPlate (comm : GhidraComment) (func : BNFunction) : BNFunction :=
  { func with comment := plateText func.comment comm.plate }

/-- The comment pass on one function. -/
def plated (lead : Bool) (func : BNFunction) : BNFunction :=
  { func with
    comment :=
      (platesOf rebase data lead func.start).foldl (fun shown comm => plateText shown comm.plate) func.comment }

theorem foldl_showPlate (comments : List GhidraComment) (func : BNFunction) :
    comments.foldl (fun func comm => showPlate comm func) func =
      { func with comment := comments.foldl (fun shown comm => plateText shown comm.plate) func.comment } := by
  induction comments generalizing func with
  | nil => rfl
  | cons comm rest ih => exact ih _

theorem foldl_applyComment_functions (s : ImportState) :
    (data.comments.foldl (applyComment rebase) s).view.functions =
      Leads.each BNFunction.start (plated rebase data) s.view.functions := by
  refine (@foldl_leads ImportState GhidraComment _ (fun s => s.view.functions) (fun _ => True) _ showPlate
    (fun _ _ => rfl) (fun s comm _ => ⟨applyComment_functions rebase s comm, trivial⟩) data.comments s
    trivial).trans ?_
  congr 1
  funext lead func
  exact foldl_showPlate _ func

/-- The pass of the function flags on one function. -/
def tagged (lead : Bool) (func : BNFunction) : BNFunction :=
  { func with tags := func.tags ++ (flagsOf keys data lead func.start).flatMap flagTags }

theorem foldl_addTags (flags : List GhidraFuncFlags) (func : BNFunction) :
    flags.foldl (fun func ff => addTags (flagTags ff) func) func =
      { func with tags := func.tags ++ flags.flatMap flagTags } := by
  induction flags generalizing func with
  | nil => rw [List.foldl_nil, List.flatMap_nil, List.append_nil]
  | cons ff rest ih => rw [List.foldl_cons, ih, addTags, List.flatMap_cons, List.append_assoc]

theorem applyFuncFlags_keyToAddr (s : ImportState) (ff : GhidraFuncFlags) :
    (applyFuncFlags s ff).keyToAddr = s.keyToAddr := by
  unfold applyFuncFlags
  split
  · rfl
  · split <;> rfl

theorem foldl_applyFuncFlags_functions (s : ImportState) :
    (data.funcFlags.foldl applyFuncFlags s).view.functions =
      Leads.each BNFunction.start (tagged s.keyToAddr data) s.view.functions := by
  refine (@foldl_leads ImportState GhidraFuncFlags _ (fun s => s.view.functions)
    (fun later => later.keyToAddr = s.keyToAddr) (fun ff => s.keyToAddr.lookup ff.key)
    (fun ff => addTags (flagTags ff)) (fun _ _ => rfl) (fun later ff same => ?_) data.funcFlags s rfl).trans ?_
  · refine ⟨?_, (applyFuncFlags_keyToAddr later ff).trans same⟩
    rw [← same]
    exact applyFuncFlags_functions later ff
  · congr 1
    funext lead func
    exact foldl_addTags _ func

/-- The equate pass on one function, which need not lead its address. -/
def sited (func : BNFunction) : BNFunction :=
  { func with
    displayTypes :=
      func.displayTypes.writeAll (siteKey rebase) siteType
        ((data.equates.flatMap sitesOf).filter fun site => func.contains (site.2.addr + rebase)) }

theorem foldl_applyEquate_functions (view : BinaryView) :
    (data.equates.foldl (applyEquate rebase) view).functions =
      Leads.each BNFunction.start (fun _ func => sited rebase data func) view.functions := by
  have kept (eq : GhidraEquate) (func : BNFunction) :
      ((sitesOf eq).foldl (showSite rebase) func).start = func.start := by
    rw [foldl_showSite]
  refine (@Leads.foldl_each BNFunction UInt64 _ BNFunction.start BinaryView GhidraEquate (applyEquate rebase)
    BinaryView.functions (fun _ => True) (fun eq _ func => (sitesOf eq).foldl (showSite rebase) func)
    (fun eq _ func => kept eq func) (fun view eq _ => ⟨applyEquate_functions rebase view eq, trivial⟩) data.equates
    view trivial).trans ?_
  congr 1
  funext _ func
  exact List.foldl_flatMap.symm.trans (foldl_showSite rebase _ func)

def nameIn (types : BinaryView) (param : GhidraParameter) (func : BNFunction) : BNFunction :=
  { func with vars := nameVariable types func.parameterVariables func.vars param }

/-- The pass of the parameters on one function, with the type names resolved in a view. -/
def named (types : BinaryView) (lead : Bool) (func : BNFunction) : BNFunction :=
  { func with
    vars := (parametersOf rebase data lead func.start).foldl (nameVariable types func.parameterVariables) func.vars }

theorem foldl_nameIn (types : BinaryView) (parameters : List GhidraParameter) (func : BNFunction) :
    parameters.foldl (fun func param => nameIn types param func) func =
      { func with vars := parameters.foldl (nameVariable types func.parameterVariables) func.vars } := by
  induction parameters generalizing func with
  | nil => rfl
  | cons param rest ih => exact ih _

theorem nameIn_congr {first second : BinaryView} (same : first.scope = second.scope) :
    nameIn first = nameIn second := by
  funext param func
  rw [nameIn, nameIn, nameVariable, nameVariable, resolveTypeName_congr same]

theorem foldl_applyParameter_functions (view : BinaryView) :
    (data.parameters.foldl (applyParameter rebase) view).functions =
      Leads.each BNFunction.start (named rebase data view) view.functions := by
  refine (@foldl_leads BinaryView GhidraParameter _ BinaryView.functions (fun later => later.scope = view.scope)
    (fun param => some (param.funcAddr + rebase)) (nameIn view) (fun _ _ => rfl) (fun later param same => ?_)
    data.parameters view rfl).trans ?_
  · refine ⟨?_, (scope_eq_of_typing (applyParameter_typing rebase later param)).trans same⟩
    rw [← nameIn_congr same]
    exact applyParameter_functions rebase later param
  · congr 1
    funext lead func
    exact foldl_nameIn view _ func

def sign (types : BinaryView) (sig : GhidraFuncSig) (func : BNFunction) : BNFunction :=
  giveReturnType types sig (giveConvention sig func)

/-- The signature pass on one function. -/
def signed (types : BinaryView) (lead : Bool) (func : BNFunction) : BNFunction :=
  { func with
    callingConvention :=
      (signaturesOf keys data lead func.start).foldl (fun held sig => (newConvention func.conventions sig).or held)
        func.callingConvention
    returnType :=
      (signaturesOf keys data lead func.start).foldl (fun held sig => (newReturnType types sig).or held) func.returnType
    hasUserType :=
      (signaturesOf keys data lead func.start).foldl
        (fun held sig => (newReturnType types sig).isSome || ((newConvention func.conventions sig).isSome || held))
        func.hasUserType }

theorem foldl_sign (types : BinaryView) (sigs : List GhidraFuncSig) (func : BNFunction) :
    sigs.foldl (fun func sig => sign types sig func) func =
      { func with
        callingConvention :=
          sigs.foldl (fun held sig => (newConvention func.conventions sig).or held) func.callingConvention
        returnType := sigs.foldl (fun held sig => (newReturnType types sig).or held) func.returnType
        hasUserType :=
          sigs.foldl
            (fun held sig => (newReturnType types sig).isSome || ((newConvention func.conventions sig).isSome || held))
            func.hasUserType } := by
  induction sigs generalizing func with
  | nil => rfl
  | cons sig rest ih => exact ih _

theorem sign_congr {first second : BinaryView} (same : first.scope = second.scope) : sign first = sign second := by
  funext sig func
  rw [sign, sign, giveReturnType, giveReturnType, newReturnType, newReturnType, resolveTypeName_congr same]

theorem foldl_applyFuncSig_functions (view : BinaryView) :
    (data.funcSigs.foldl (applyFuncSig keys) view).functions =
      Leads.each BNFunction.start (signed keys data view) view.functions := by
  refine (@foldl_leads BinaryView GhidraFuncSig _ BinaryView.functions (fun later => later.scope = view.scope)
    (fun sig => keys.lookup sig.key) (sign view) (fun _ _ => rfl) (fun later sig same => ?_) data.funcSigs view
    rfl).trans ?_
  · refine ⟨?_, (scope_eq_of_typing (applyFuncSig_typing keys later sig)).trans same⟩
    rw [← sign_congr same]
    exact applyFuncSig_functions keys later sig
  · congr 1
    funext lead func
    exact foldl_sign view _ func

/-- What the import makes of one function. `early` and `late` are the views in which the
type names of its variables and of its result are resolved. -/
def passed (early late : BinaryView) (lead : Bool) (func : BNFunction) : BNFunction :=
  signed keys data late lead
    (named rebase data early lead (sited rebase data (tagged keys data lead (plated rebase data lead func))))

theorem passed_congr {early early' late late' : BinaryView} (sameEarly : early.scope = early'.scope)
    (sameLate : late.scope = late'.scope) :
    passed rebase keys data early late = passed rebase keys data early' late' := by
  have names : nameVariable early = nameVariable early' := by
    funext parameters vars param
    rw [nameVariable, nameVariable, resolveTypeName_congr sameEarly]
  have returns : newReturnType late = newReturnType late' := by
    funext sig
    rw [newReturnType, newReturnType, resolveTypeName_congr sameLate]
  funext lead func
  rw [passed, passed, signed, signed, named, named, names, returns]

end

section
variable (view : BinaryView) (data : GhidraDbExport)

/-- The view the parameters are applied to. -/
def beforeParameters : BinaryView :=
  data.bookmarks.foldl (applyBookmark (rebaseOf view data))
    (data.equates.foldl (applyEquate (rebaseOf view data)) (applyMapped view data).view)

/-- After the symbols every pass changes the functions one by one. -/
theorem applyToView_functions :
    (applyToView view data).1.functions =
      Leads.each BNFunction.start
        (passed (rebaseOf view data) (afterComments view data).keyToAddr data (beforeParameters view data)
          (afterItems view data))
        (afterSymbols view data).view.functions := by
  have flagged : (applyMapped view data).keyToAddr = (afterComments view data).keyToAddr :=
    @Fold.foldl_keeps ImportState GhidraFuncFlags _ _ (fun s => s.keyToAddr) applyFuncFlags_keyToAddr data.funcFlags _
  have types : (afterItems view data).functions = (beforeTypes view data).functions := by
    rw [afterItems_frame, afterTypes_frame]
  have bookmarks : (beforeParameters view data).functions =
      (data.equates.foldl (applyEquate (rebaseOf view data)) (applyMapped view data).view).functions :=
    Fold.foldl_keeps (fun v bm => by rw [applyBookmark_frame]) data.bookmarks _
  have last : (applyToView view data).1.functions =
      Leads.each BNFunction.start (signed (applyMapped view data).keyToAddr data (afterItems view data))
        (afterItems view data).functions := foldl_applyFuncSig_functions _ data _
  have parameters : (beforeTypes view data).functions =
      Leads.each BNFunction.start (named (rebaseOf view data) data (beforeParameters view data))
        (beforeParameters view data).functions := foldl_applyParameter_functions _ data _
  rw [last, flagged, types, parameters, bookmarks, foldl_applyEquate_functions, applyMapped_eq,
    foldl_applyFuncFlags_functions, afterComments, foldl_applyComment_functions, ← afterComments]
  -- no pass moves a function, so the five run through each function together
  have unnamed (types : BinaryView) (lead : Bool) (func : BNFunction) :
      (named (rebaseOf view data) data types lead func).start = func.start := rfl
  have unsited (lead : Bool) (func : BNFunction) : (sited (rebaseOf view data) data func).start = func.start := rfl
  have untagged (keys : Table Int64 UInt64) (lead : Bool) (func : BNFunction) :
      (tagged keys data lead func).start = func.start := rfl
  have unplated (lead : Bool) (func : BNFunction) :
      (plated (rebaseOf view data) data lead func).start = func.start := rfl
  rw [Leads.each_each (unnamed _), Leads.each_each unsited, Leads.each_each (untagged _), Leads.each_each unplated]
  rfl

end

end FunctionPasses
end GhidraBridge
