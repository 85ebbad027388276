import GhidraBridge.AppliedEffects

/-! What a step of each loop can do, said once. An entry changes nothing, or it has been read
in full and its calls are made. -/
namespace GhidraBridge.AppliedSteps
open Lib ProgramApplier AppliedEffects

variable {space : AddressSpace} {el : Json}

/-! ## Symbols, variables, data and signatures -/

section Listing
variable {P : Type} {lib : ProgramLibrary space P} {types : TypeLibrary} {manager : DataTypeManager}
  {applied next : Counted P}

theorem elim_cases {A : Type} {found : Option A} {act : A → Counted P} (made : found.elim applied act = next) :
    next = applied ∨ ∃ a, found = some a ∧ next = act a := by
  cases found with
  | none => exact .inl made.symm
  | some a => exact .inr ⟨a, rfl, made.symm⟩

theorem applySymbol_cases (stepped : applySymbol lib applied el = some next) :
    next = applied ∨ ∃ name, el.getStr "name" "" = some name ∧
      ((∃ member key, el.get? "key" = some member ∧ member.getAsLong = some key ∧
          next = applied.attempt (lib.setName applied.program key name)) ∨
        ∃ member addr, el.get? "key" = none ∧ el.get? "va" = some member ∧ addressOf space el "va" = some addr ∧
          next = applied.attempt (lib.createLabel applied.program addr name)) := by
  rw [applySymbol] at stepped
  split at stepped
  · cases stepped
  obtain ⟨name, named, rest⟩ := Option.bind_eq_some_iff.mp stepped
  split at rest
  · exact .inl (Option.some.inj rest).symm
  split at rest
  · rename_i keyed
    split at rest
    · exact .inl (Option.some.inj rest).symm
    rename_i key read
    split at rest
    · exact .inl (Option.some.inj rest).symm
    · exact .inr ⟨name, named, .inl ⟨_, key, keyed, read, (Option.some.inj rest).symm⟩⟩
  · rename_i member keyless vaRead
    split at rest
    · exact .inl (Option.some.inj rest).symm
    rename_i va parsed
    rcases elim_cases (Option.some.inj rest) with same | ⟨addr, inside, made⟩
    · exact .inl same
    · exact .inr ⟨name, named, .inr ⟨member, addr, keyless, vaRead, addressOf_eq vaRead parsed inside, made⟩⟩
  · exact .inl (Option.some.inj rest).symm

theorem applyParameter_cases (stepped : applyParameter lib types manager applied el = some next) :
    next = applied ∨ ∃ name, el.getStr "name" "" = some name ∧ name ≠ "" ∧
      ((∃ member key, el.get? "key" = some member ∧ member.getAsLong = some key ∧
          next = renameVariable lib types manager key name el applied) ∨
        ∃ funcVa ordinal addr i, el.get? "key" = none ∧ el.get? "func_va" = some funcVa ∧
          el.get? "ordinal" = some ordinal ∧ isLocalAsked el = some false ∧ addressOf space el "func_va" = some addr ∧
          ordinal.getAsInt = some i ∧ next = parameterAt lib types manager i name el addr applied) := by
  rw [applyParameter] at stepped
  split at stepped
  · cases stepped
  obtain ⟨name, named, rest⟩ := Option.bind_eq_some_iff.mp stepped
  split at rest
  · exact .inl (Option.some.inj rest).symm
  rename_i filled
  split at rest
  · rename_i keyed
    rcases elim_cases (Option.some.inj rest) with same | ⟨key, read, made⟩
    · exact .inl same
    · exact .inr ⟨name, named, filled, .inl ⟨_, key, keyed, read, made⟩⟩
  · rename_i funcVa ordinal keyless function placed
    have position (asked : isLocalAsked el = some false) (va : UInt64) (i : Int32)
        (parsed : funcVa.getAsString.bind parseHexLong = some va) (read : ordinal.getAsInt = some i)
        (made : ((space.getAddress va).elim applied fun addr =>
          parameterAt lib types manager i name el addr applied) = next) :
        next = applied ∨ ∃ funcVa ordinal addr i, el.get? "key" = none ∧ el.get? "func_va" = some funcVa ∧
          el.get? "ordinal" = some ordinal ∧ isLocalAsked el = some false ∧ addressOf space el "func_va" = some addr ∧
          ordinal.getAsInt = some i ∧ next = parameterAt lib types manager i name el addr applied := by
      rcases elim_cases made with same | ⟨addr, inside, made⟩
      · exact .inl same
      · exact .inr ⟨funcVa, ordinal, addr, i, keyless, function, placed, asked,
        addressOf_eq function parsed inside, read, made⟩
    refine Or.imp_right (fun there => ⟨name, named, filled, .inr there⟩) ?_
    -- whether it is a local is read or has its default
    split at rest
    · rename_i member held
      dsimp only at rest
      split at rest
      · rename_i va i notLocal parsed read
        exact position (by rw [isLocalAsked, held]; exact notLocal) va i parsed read (Option.some.inj rest)
      · exact .inl (Option.some.inj rest).symm
    · rename_i held
      dsimp only at rest
      split at rest
      · rename_i va i _ parsed read
        exact position (by rw [isLocalAsked, held]) va i parsed read (Option.some.inj rest)
      · exact .inl (Option.some.inj rest).symm
  · exact .inl (Option.some.inj rest).symm

theorem applyDataItem_cases (stepped : applyDataItem lib types manager applied el = some next) :
    next = applied ∨ ∃ op addr, el.getStr "op" "add" = some op ∧ addressOf space el "addr" = some addr ∧
      positiveAddress space el "addr" = some addr ∧ next = dataItemAt lib types manager op el addr applied := by
  rw [applyDataItem] at stepped
  split at stepped
  · cases stepped
  obtain ⟨op, operation, rest⟩ := Option.bind_eq_some_iff.mp stepped
  split at rest
  · rename_i member read
    obtain ⟨va, parsed, taken⟩ := Option.bind_eq_some_iff.mp rest
    dsimp only at taken
    split at taken
    · exact .inl (Option.some.inj taken).symm
    rename_i nonneg
    rcases elim_cases (Option.some.inj taken) with same | ⟨addr, inside, made⟩
    · exact .inl same
    · exact .inr ⟨op, addr, operation, addressOf_eq read parsed inside,
      positiveAddress_eq read parsed nonneg inside, made⟩
  · -- a missing address counts as negative
    simp only [Option.bind_eq_bind, Option.bind_some] at rest
    rw [if_pos (by decide)] at rest
    exact .inl (Option.some.inj rest).symm

/-- The convention of a signature, where one is asked for and can be set. -/
def conventionCall (lib : ProgramLibrary space P) (p : P) (key : Int64) (cc : String) : Option P :=
  if cc = "" then none
  else (knownConvention (lib.callingConventions p) cc).bind fun name => lib.setCallingConvention p key name

/-- The two halves of a signature, and the count if one of them was set. -/
def signatureCalls (lib : ProgramLibrary space P) (key : Int64) (type : Option DataTypeRef) (cc : String)
    (applied : Counted P) : Counted P :=
  let typed := type.bind fun given => lib.setReturnType applied.program key given
  let p := typed.getD applied.program
  let convention := conventionCall lib p key cc
  ⟨convention.getD p, applied.count + if typed.isSome || convention.isSome then 1 else 0⟩

theorem applyFuncSig_cases (stepped : applyFuncSig lib types manager applied el = some next) :
    next = applied ∨ ∃ key type cc, (el.get? "key").bind Json.getAsLong = some key ∧
      lib.hasFunction applied.program key = some true ∧ resolveOptional types manager el "ret_type" = some type ∧
      el.getStr "cc" "" = some cc ∧ next = signatureCalls lib key type cc applied := by
  rw [applyFuncSig] at stepped
  split at stepped
  · cases stepped
  obtain ⟨member, keyRead, rest⟩ := Option.bind_eq_some_iff.mp stepped
  obtain ⟨key, keyed, rest⟩ := Option.bind_eq_some_iff.mp rest
  split at rest
  · exact .inl (Option.some.inj rest).symm
  rename_i known
  have whole : (el.get? "key").bind Json.getAsLong = some key := by rw [keyRead, Option.bind_some, keyed]
  have outcome (type : Option DataTypeRef) (resolved : resolveOptional types manager el "ret_type" = some type)
      (rest : ((el.getStr "cc" "").bind fun cc => some (signatureCalls lib key type cc applied)) = some next) :
      ∃ key type cc, (el.get? "key").bind Json.getAsLong = some key ∧
        lib.hasFunction applied.program key = some true ∧ resolveOptional types manager el "ret_type" = some type ∧
        el.getStr "cc" "" = some cc ∧ next = signatureCalls lib key type cc applied := by
    obtain ⟨cc, given, made⟩ := Option.bind_eq_some_iff.mp rest
    exact ⟨key, type, cc, whole, not_ne_iff.mp known, resolved, given, (Option.some.inj made).symm⟩
  cases typeRead : el.get? "ret_type" with
  | none =>
    rw [typeRead] at rest
    exact .inr (outcome none (by rw [resolveOptional, typeRead]) rest)
  | some member =>
    rw [typeRead] at rest
    obtain ⟨type, resolved, rest⟩ := Option.bind_eq_some_iff.mp rest
    exact .inr (outcome type (by rw [resolveOptional, typeRead]; exact resolved) rest)

end Listing

/-! ## Comments, bookmarks and equates -/

section Notes
variable {N : Type} {lib : NoteLibrary space N} {applied next : Counted N}

theorem applyComment_cases (stepped : lib.applyComment applied el = some next) :
    next = applied ∨ ∃ addr, addressOf space el "va" = some addr ∧
      next = applied.proceed (lib.setColumns addr el [.eol, .pre, .post, .plate, .repeatable] applied.program) := by
  rw [NoteLibrary.applyComment] at stepped
  split at stepped
  · cases stepped
  split at stepped
  · exact .inl (Option.some.inj stepped).symm
  rename_i member read
  obtain ⟨va, parsed, written⟩ := Option.map_eq_some_iff.mp stepped
  split at written
  · exact .inl written.symm
  · rename_i addr inside
    exact .inr ⟨addr, addressOf_eq read parsed inside, written.symm⟩

theorem applyBookmark_cases (stepped : lib.applyBookmark applied el = some next) :
    next = applied ∨ ∃ op type category comment addr, el.getStr "op" "add" = some op ∧
      el.getStr "type" "Note" = some type ∧ el.getStr "category" "" = some category ∧
      el.getStr "comment" "" = some comment ∧ addressOf space el "addr" = some addr ∧
      positiveAddress space el "addr" = some addr ∧
      next = applied.proceed (lib.changeBookmark applied.program addr op type category comment) := by
  rw [NoteLibrary.applyBookmark] at stepped
  split at stepped
  · cases stepped
  obtain ⟨op, operation, rest⟩ := Option.bind_eq_some_iff.mp stepped
  obtain ⟨type, typed, rest⟩ := Option.bind_eq_some_iff.mp rest
  obtain ⟨category, categorized, rest⟩ := Option.bind_eq_some_iff.mp rest
  obtain ⟨comment, commented, rest⟩ := Option.bind_eq_some_iff.mp rest
  split at rest
  · rename_i member read
    obtain ⟨va, parsed, taken⟩ := Option.bind_eq_some_iff.mp rest
    dsimp only at taken
    split at taken
    · exact .inl (Option.some.inj taken).symm
    rename_i nonneg
    split at taken
    · exact .inl (Option.some.inj taken).symm
    · rename_i addr inside
      exact .inr ⟨op, type, category, comment, addr, operation, typed, categorized, commented,
        addressOf_eq read parsed inside, positiveAddress_eq read parsed nonneg inside, (Option.some.inj taken).symm⟩
  · simp only [Option.bind_eq_bind, Option.bind_some] at rest
    rw [if_pos (by decide)] at rest
    exact .inl (Option.some.inj rest).symm

/-- The key of an id that was read, where a missing one is -1. -/
def IdRead (el : Json) (id : Int64) : Prop := ∀ key, keyOf id = some key → keyAsked el = some key

theorem idRead_none : IdRead el (-1) := by
  intro key known
  cases known

theorem idRead_some {member : Json} {id : Int64} (given : el.get? "id" = some member)
    (read : member.getAsLong = some id) : IdRead el id := by
  intro key known
  rw [keyAsked, given, Option.bind_some, read, Option.bind_some, known]

theorem applyEquateRename_cases {equates : Table Nat Nat}
    (stepped : lib.applyEquateRename equates applied el = some next) :
    ∃ id name, IdRead el id ∧ el.getStr "name" "" = some name ∧
      next = applied.proceed (lib.renameEquate equates applied.program id name) := by
  rw [NoteLibrary.applyEquateRename] at stepped
  split at stepped
  · cases stepped
  cases given : el.get? "id" with
  | none =>
    rw [given] at stepped
    obtain ⟨name, named, made⟩ := Option.bind_eq_some_iff.mp
      (show (el.getStr "name" "").bind _ = some next from stepped)
    exact ⟨-1, name, idRead_none, named, (Option.some.inj made).symm⟩
  | some member =>
    rw [given] at stepped
    obtain ⟨id, read, rest⟩ := Option.bind_eq_some_iff.mp stepped
    obtain ⟨name, named, made⟩ := Option.bind_eq_some_iff.mp rest
    exact ⟨id, name, idRead_some given read, named, (Option.some.inj made).symm⟩

/-- The address of a reference that was read, where a missing one is -1. -/
def VaRead (space : AddressSpace) (el : Json) (va : UInt64) : Prop :=
  ∀ addr, (if va.toInt64 < 0 then none else space.getAddress va) = some addr → addressOf space el "va" = some addr

theorem vaRead_none : VaRead space el (-1) := by
  intro addr inside
  rw [if_pos (by decide)] at inside
  cases inside

theorem vaRead_some {member : Json} {va : UInt64} (given : el.get? "va" = some member)
    (parsed : member.getAsString.bind parseHexLong = some va) : VaRead space el va := by
  intro addr inside
  split at inside
  · cases inside
  · exact addressOf_eq given parsed inside

theorem applyEquateRefAdd_cases {equates : Table Nat Nat}
    (stepped : lib.applyEquateRefAdd equates applied el = some next) :
    ∃ id va opIndex, IdRead el id ∧ VaRead space el va ∧ intOr el "op_index" 0 = some opIndex ∧
      next = applied.attempt (lib.addEquateRef equates applied.program id va opIndex) := by
  rw [NoteLibrary.applyEquateRefAdd] at stepped
  split at stepped
  · cases stepped
  -- each of the three may be missing
  have read (id : Option Int64) (va : Option UInt64) (opIndex : Option Int32)
      (idRead : ∀ found, id = some found → IdRead el found) (vaRead : ∀ found, va = some found → VaRead space el found)
      (indexRead : intOr el "op_index" 0 = opIndex)
      (run : (id.bind fun id => va.bind fun va => opIndex.bind fun opIndex =>
        some (applied.attempt (lib.addEquateRef equates applied.program id va opIndex))) = some next) :
      ∃ id va opIndex, IdRead el id ∧ VaRead space el va ∧ intOr el "op_index" 0 = some opIndex ∧
        next = applied.attempt (lib.addEquateRef equates applied.program id va opIndex) := by
    obtain ⟨id, idFound, afterId⟩ := Option.bind_eq_some_iff.mp run
    obtain ⟨va, vaFound, afterVa⟩ := Option.bind_eq_some_iff.mp afterId
    obtain ⟨index, rfl, made⟩ := Option.bind_eq_some_iff.mp afterVa
    exact ⟨id, va, index, idRead id idFound, vaRead va vaFound, indexRead, (Option.some.inj made).symm⟩
  have idRead (id : Int64) (held : (el.get? "id").elim (some (-1)) Json.getAsLong = some id) : IdRead el id := by
    cases given : el.get? "id" with
    | none =>
      rw [given] at held
      cases held
      exact idRead_none
    | some member =>
      rw [given] at held
      exact idRead_some given held
  have vaRead (va : UInt64)
      (held : (el.get? "va").elim (some (-1)) (fun member => member.getAsString.bind parseHexLong) = some va) :
      VaRead space el va := by
    cases given : el.get? "va" with
    | none =>
      rw [given] at held
      cases held
      exact vaRead_none
    | some member =>
      rw [given] at held
      exact vaRead_some given held
  refine read _ _ _ idRead vaRead rfl ?_
  rw [← stepped, intOr]
  cases el.get? "id" <;> cases el.get? "va" <;> cases el.get? "op_index" <;> rfl

end Notes

/-! ## Data types -/

theorem applyTypeChange_cases {store : TypeStore} {lib : TypeLibrary} {applied next : TypesApplied}
    (stepped : store.applyTypeChange lib applied el = some next) :
    next = applied ∨ ∃ op kind name, el.getStr "op" "add" = some op ∧ el.getStr "kind" "" = some kind ∧
      el.getStr "name" "" = some name ∧ name ≠ "" ∧
      ((op = "delete" ∧ store.removeType applied.manager name = some next.manager) ∨
        op ≠ "delete" ∧ ∃ content stored, rebuild lib applied.manager kind el = some content ∧
          store.addDataType applied.manager name content = some stored ∧ next.manager = stored.1) ∧
      next.count = applied.count + 1 := by
  rw [TypeStore.applyTypeChange] at stepped
  split at stepped
  · cases stepped
  obtain ⟨op, operation, rest⟩ := Option.bind_eq_some_iff.mp stepped
  obtain ⟨kind, kindRead, rest⟩ := Option.bind_eq_some_iff.mp rest
  obtain ⟨name, named, rest⟩ := Option.bind_eq_some_iff.mp rest
  split at rest
  · exact .inl (Option.some.inj rest).symm
  rename_i filled
  by_cases deletes : op = "delete"
  · rw [if_pos deletes] at rest
    split at rest
    · exact .inl (Option.some.inj rest).symm
    rename_i after removed
    cases rest
    exact .inr ⟨op, kind, name, operation, kindRead, named, filled, .inl ⟨deletes, removed⟩, rfl⟩
  · rw [if_neg deletes] at rest
    split at rest
    · exact .inl (Option.some.inj rest).symm
    rename_i stored built
    cases rest
    obtain ⟨content, made, called⟩ := Option.bind_eq_some_iff.mp built
    exact .inr ⟨op, kind, name, operation, kindRead, named, filled,
      .inr ⟨deletes, content, stored, made, called, rfl⟩, rfl⟩

end GhidraBridge.AppliedSteps
