import GhidraBridge.EquateTable
import GhidraBridge.ListingApplier
import GhidraBridge.Lib.Fold

/-! The loops of a check-in over calls that may throw (`ProgramApplier.java`). Comments,
bookmarks, equates and the store of the data types are behind libraries here, as symbols,
variables, data and signatures are, and nothing stands for an exception. Over the tables,
where no such call throws, the loops are those of the tables. -/
namespace GhidraBridge
open Lib Lib.Fold ProgramApplier

/-- Ghidra's part in comments, bookmarks and equates: calls on a program of its own type. -/
structure NoteLibrary (space : AddressSpace) (N : Type) where
  setComment : N → space.Address → CommentType → Option String → Option N
  /-- `getBookmarks(addr, type)`, by address, type and category. -/
  getBookmarks : N → space.Address → String → Option (List (space.Address × String × String))
  removeBookmark : N → space.Address × String × String → Option N
  setBookmark : N → space.Address → String → String → String → Option N
  /-- The `Equate` of each key of the Equates table. -/
  byKey : N → Table Nat Nat
  /-- Name, value and references of an `Equate`. -/
  getEquate : N → Nat → Option (EquateRecord space)
  removeEquate : N → String → Option N
  createEquate : N → String → Int64 → Option (Nat × N)
  addReference : N → Nat → space.Address × Int32 → Option N

/-- An entry that may end early: it counts if it does not. -/
def Counted.proceed {P : Type} (applied : Counted P) (result : P × Bool) : Counted P where
  program := result.1
  count := applied.count + if result.2 then 1 else 0

namespace NoteLibrary
variable {space : AddressSpace} {N : Type} (lib : NoteLibrary space N)

/-! ## Comments -/

/-- Set the columns an entry has, up to one whose value or call throws. -/
def setColumns (addr : space.Address) (c : Json) : List CommentType → N → N × Bool
  | [], program => (program, true)
  | type :: rest, program =>
    match c.get? type.field with
    | none => setColumns addr c rest program
    | some member =>
      match member.getAsString.bind fun text => lib.setComment program addr type (nullIfEmpty text) with
      | none => (program, false)
      | some next => setColumns addr c rest next

def applyComment (applied : Counted N) (el : Json) : Option (Counted N) :=
  if el.isObject = false then none
  else
    match el.get? "va" with
    | none => some applied
    | some member =>
      (member.getAsString.bind parseHexLong).map fun va =>
        match space.getAddress va with
        | none => applied
        | some addr =>
          applied.proceed (lib.setColumns addr el [.eol, .pre, .post, .plate, .repeatable] applied.program)

/-! ## Bookmarks -/

/-- Remove bookmarks, up to one whose removal throws. -/
def removeBookmarks : List (space.Address × String × String) → N → N × Bool
  | [], program => (program, true)
  | key :: rest, program =>
    match lib.removeBookmark program key with
    | none => (program, false)
    | some next => removeBookmarks rest next

def changeBookmark (program : N) (addr : space.Address) (op type category comment : String) : N × Bool :=
  if op = "delete" then
    match lib.getBookmarks program addr type with
    | none => (program, false)
    | some existing => lib.removeBookmarks existing program
  else
    match lib.setBookmark program addr type category comment with
    | none => (program, false)
    | some next => (next, true)

def applyBookmark (applied : Counted N) (el : Json) : Option (Counted N) :=
  if el.isObject = false then none
  else do
    let op ← el.getStr "op" "add"
    let type ← el.getStr "type" "Note"
    let category ← el.getStr "category" ""
    let comment ← el.getStr "comment" ""
    let va ← match el.get? "addr" with
      | some member => member.getAsString.bind parseHexLong
      | none => some (-1)
    if va.toInt64 < 0 then return applied
    match space.getAddress va with
    | none => return applied
    | some addr => return applied.proceed (lib.changeBookmark applied.program addr op type category comment)

/-! ## Equates -/

/-- One decoded rename. The references are attached one by one, and one that throws is
left out. -/
def renameEquate (equates : Table Nat Nat) (program : N) (id : Int64) (name : String) : N × Bool :=
  if name = "" then (program, false)
  else
    match (keyOf id).bind equates.lookup with
    | none => (program, false)
    | some key =>
      match lib.getEquate program key with
      | none => (program, false)
      | some old =>
        match lib.removeEquate program old.name with
        | none => (program, false)
        | some removed =>
          match lib.createEquate removed name old.value with
          | none => (removed, false)
          | some (newKey, created) =>
            (old.refs.list.foldl (fun current ref => (lib.addReference current newKey ref).getD current) created, true)

def applyEquateRename (equates : Table Nat Nat) (applied : Counted N) (el : Json) : Option (Counted N) :=
  if el.isObject = false then none
  else do
    let id ← match el.get? "id" with
      | some member => member.getAsLong
      | none => some (-1)
    let name ← el.getStr "name" ""
    return applied.proceed (lib.renameEquate equates applied.program id name)

/-- One decoded reference. -/
def addEquateRef (equates : Table Nat Nat) (program : N) (id : Int64) (va : UInt64) (opIndex : Int32) : Option N :=
  ((keyOf id).bind equates.lookup).bind fun key =>
    (if va.toInt64 < 0 then none else space.getAddress va).bind fun addr => lib.addReference program key (addr, opIndex)

def applyEquateRefAdd (equates : Table Nat Nat) (applied : Counted N) (el : Json) : Option (Counted N) :=
  if el.isObject = false then none
  else do
    let id ← match el.get? "id" with
      | some member => member.getAsLong
      | none => some (-1)
    let va ← match el.get? "va" with
      | some member => member.getAsString.bind parseHexLong
      | none => some (-1)
    let opIndex ← match el.get? "op_index" with
      | some member => member.getAsInt
      | none => some 0
    return applied.attempt (lib.addEquateRef equates applied.program id va opIndex)

end NoteLibrary

/-! ## Data types -/

/-- The calls that store and remove a type of the root category. -/
structure TypeStore where
  addDataType : DataTypeManager → String → TypeContent → Option (DataTypeManager × Int64)
  remove : DataTypeManager → String → Option DataTypeManager

namespace TypeStore
variable (store : TypeStore) (lib : TypeLibrary)

/-- One entry of the first pass. -/
def applyStub (manager : DataTypeManager) (el : Json) : Option DataTypeManager :=
  if el.isObject = false then none
  else do
    let op ← el.getStr "op" "add"
    let kind ← el.getStr "kind" ""
    let name ← el.getStr "name" ""
    if name = "" ∨ op = "delete" then return manager
    match manager.getDataType name, stubContent kind el with
    | none, some content => return ((store.addDataType manager name content).map Prod.fst).getD manager
    | _, _ => return manager

/-- Take out the type that is there. -/
def removeType (manager : DataTypeManager) (name : String) : Option DataTypeManager :=
  match manager.getDataType name with
  | none => some manager
  | some _ => store.remove manager name

/-- One entry of the second pass. -/
def applyTypeChange (applied : TypesApplied) (el : Json) : Option TypesApplied :=
  if el.isObject = false then none
  else do
    let op ← el.getStr "op" "add"
    let kind ← el.getStr "kind" ""
    let name ← el.getStr "name" ""
    if name = "" then return applied
    if op = "delete" then
      match store.removeType applied.manager name with
      | none => return applied
      | some manager => return { applied with manager, count := applied.count + 1 }
    match (rebuild lib applied.manager kind el).bind (store.addDataType applied.manager name) with
    | none => return applied
    | some result =>
      return {
        manager := result.1
        added := if op = "add" then applied.added.set name result.2 else applied.added
        count := applied.count + 1 }

def applyDataTypes (manager : DataTypeManager) (changes : List Json) : Option TypesApplied := do
  let stubbed ← changes.foldlM store.applyStub manager
  changes.foldlM (store.applyTypeChange lib) { manager := stubbed }

end TypeStore

/-! ## Over the tables -/

section Tables
variable {space : AddressSpace} (validName : String → Bool)

/-- The tables of a program, whose calls do not throw but for a name no equate can have. -/
def tableLibrary : NoteLibrary space (ProgramDB space × EquateTable space) where
  setComment program addr type text := some (setComment program.1 addr type text, program.2)
  getBookmarks program addr type := some (getBookmarks program.1 addr type)
  removeBookmark program key := some (removeBookmark program.1 key, program.2)
  setBookmark program addr type category comment := some (setBookmark program.1 addr type category comment, program.2)
  byKey program := program.2.byKey
  getEquate program key := program.2.records.lookup key
  removeEquate program name := some (program.1, program.2.removeEquate name)
  createEquate program name value :=
    (program.2.createEquate validName name value).map fun created => (created.1, program.1, created.2)
  addReference program key ref := (program.2.addReference key ref).map fun table => (program.1, table)

def tableStore (lib : TypeLibrary) : TypeStore where
  addDataType manager name content := some (manager.addDataType lib name content)
  remove manager name := some (manager.erase (rootCategory, name))

/-- What the comments and bookmarks loops hold, beside equates they do not touch. -/
def besideEquates (table : EquateTable space) (applied : Applied space) :
    Counted (ProgramDB space × EquateTable space) where
  program := (applied.program, table)
  count := applied.count

/-- What the equate loops hold, beside the rest. -/
def besideRest (program : ProgramDB space) (applied : EquatesApplied space) :
    Counted (ProgramDB space × EquateTable space) where
  program := (program, applied.table)
  count := applied.count

theorem setColumns_tables (table : EquateTable space) (addr : space.Address) (c : Json) (columns : List CommentType)
    (program : ProgramDB space) :
    (tableLibrary validName).setColumns addr c columns (program, table) =
      (((setColumns addr c columns program).1, table), (setColumns addr c columns program).2) := by
  induction columns generalizing program with
  | nil => rfl
  | cons type rest ih =>
    rw [NoteLibrary.setColumns, setColumns]
    cases c.get? type.field with
    | none => exact ih program
    | some member =>
      dsimp only
      cases member.getAsString with
      | none => rfl
      | some text => exact ih _

theorem applyComments_tables (table : EquateTable space) (comments : List Json) (applied : Applied space) :
    comments.foldlM (tableLibrary validName).applyComment (besideEquates table applied) =
      (comments.foldlM applyComment applied).map (besideEquates table) := by
  refine foldlM_follows (fun applied el => ?_) comments applied
  rw [NoteLibrary.applyComment, applyComment]
  by_cases object : el.isObject = false
  · rw [if_pos object, if_pos object]
    rfl
  rw [if_neg object, if_neg object]
  cases el.get? "va" with
  | none => rfl
  | some member =>
    dsimp only
    cases member.getAsString.bind parseHexLong with
    | none => rfl
    | some va =>
      rw [Option.map_some, Option.map_some, Option.map_some, Option.some.injEq]
      cases space.getAddress va with
      | none => rfl
      | some addr =>
        exact congrArg (besideEquates table applied).proceed (setColumns_tables validName table addr el _ _)

theorem removeBookmarks_tables (table : EquateTable space) (keys : List (space.Address × String × String))
    (program : ProgramDB space) :
    (tableLibrary validName).removeBookmarks keys (program, table) =
      ((keys.foldl removeBookmark program, table), true) := by
  induction keys generalizing program with
  | nil => rfl
  | cons key rest ih => exact ih (removeBookmark program key)

theorem changeBookmark_tables (table : EquateTable space) (program : ProgramDB space) (addr : space.Address)
    (op type category comment : String) :
    (tableLibrary validName).changeBookmark (program, table) addr op type category comment =
      ((changeBookmark program addr op type category comment, table), true) := by
  rw [NoteLibrary.changeBookmark, changeBookmark]
  split
  · exact removeBookmarks_tables validName table _ program
  · rfl

theorem applyBookmarks_tables (table : EquateTable space) (changes : List Json) (applied : Applied space) :
    changes.foldlM (tableLibrary validName).applyBookmark (besideEquates table applied) =
      (changes.foldlM applyBookmark applied).map (besideEquates table) := by
  refine foldlM_follows (fun applied el => ?_) changes applied
  have entry (op type category comment : String) (va : UInt64) :
      (if va.toInt64 < 0 then some (besideEquates table applied)
        else match space.getAddress va with
          | none => some (besideEquates table applied)
          | some addr => some ((besideEquates table applied).proceed
              ((tableLibrary validName).changeBookmark (applied.program, table) addr op type category comment))) =
        (if va.toInt64 < 0 then some applied
          else match space.getAddress va with
            | none => some applied
            | some addr => some ⟨changeBookmark applied.program addr op type category comment, applied.count + 1⟩).map
          (besideEquates table) := by
    by_cases negative : va.toInt64 < 0
    · rw [if_pos negative, if_pos negative]
      rfl
    rw [if_neg negative, if_neg negative]
    cases space.getAddress va with
    | none => rfl
    | some addr =>
      exact congrArg (fun changed => some ((besideEquates table applied).proceed changed))
        (changeBookmark_tables validName table applied.program addr op type category comment)
  rw [NoteLibrary.applyBookmark, applyBookmark]
  by_cases object : el.isObject = false
  · rw [if_pos object, if_pos object]
    rfl
  rw [if_neg object, if_neg object]
  cases el.getStr "op" "add" with
  | none => rfl
  | some op =>
  cases el.getStr "type" "Note" with
  | none => rfl
  | some type =>
  cases el.getStr "category" "" with
  | none => rfl
  | some category =>
  cases el.getStr "comment" "" with
  | none => rfl
  | some comment =>
  cases el.get? "addr" with
  | none => exact entry op type category comment (-1)
  | some member =>
    dsimp only [Option.bind_eq_bind, Option.bind_some]
    cases member.getAsString.bind parseHexLong with
    | none => rfl
    | some va => exact entry op type category comment va

theorem renameEquate_tables (program : ProgramDB space) (equates : Table Nat Nat)
    (table : EquateTable space) (id : Int64)
    (name : String) :
    (tableLibrary validName).renameEquate equates (program, table) id name =
      ((program, (renameEquate validName equates table id name).1),
        (renameEquate validName equates table id name).2) := by
  have attach (key : Nat) (refs : List (space.Address × Int32)) (table : EquateTable space) :
      refs.foldl (fun current ref => ((tableLibrary validName).addReference current key ref).getD current)
          (program, table) =
        (program, refs.foldl (fun current ref => (current.addReference key ref).getD current) table) := by
    induction refs generalizing table with
    | nil => rfl
    | cons ref rest ih =>
      rw [List.foldl_cons, List.foldl_cons, ← ih]
      congr 1
      change ((table.addReference key ref).map fun table => (program, table)).getD (program, table) = _
      cases table.addReference key ref <;> rfl
  rw [NoteLibrary.renameEquate, renameEquate]
  by_cases unnamed : name = ""
  · rw [if_pos unnamed, if_pos unnamed]
  rw [if_neg unnamed, if_neg unnamed]
  cases (keyOf id).bind equates.lookup with
  | none => rfl
  | some key =>
    dsimp only [tableLibrary]
    cases table.records.lookup key with
    | none => rfl
    | some old =>
      dsimp only
      cases (table.removeEquate old.name).createEquate validName name old.value with
      | none => rfl
      | some created => exact congrArg (·, true) (attach created.1 old.refs.list created.2)

theorem applyEquateRenames_tables (program : ProgramDB space) (equates : Table Nat Nat) (renames : List Json)
    (applied : EquatesApplied space) :
    renames.foldlM ((tableLibrary validName).applyEquateRename equates) (besideRest program applied) =
      (renames.foldlM (applyEquateRename validName equates) applied).map (besideRest program) := by
  refine foldlM_follows (fun applied el => ?_) renames applied
  rw [NoteLibrary.applyEquateRename, applyEquateRename]
  by_cases object : el.isObject = false
  · rw [if_pos object, if_pos object]
    rfl
  rw [if_neg object, if_neg object]
  have entry (id : Option Int64) :
      (id.bind fun id => (el.getStr "name" "").bind fun name =>
        some ((besideRest program applied).proceed
          ((tableLibrary validName).renameEquate equates (program, applied.table) id name))) =
        (id.bind fun id => (el.getStr "name" "").bind fun name =>
          some (⟨(renameEquate validName equates applied.table id name).1,
            applied.count + if (renameEquate validName equates applied.table id name).2 then 1 else 0⟩ :
              EquatesApplied space)).map (besideRest program) := by
    cases id with
    | none => rfl
    | some id =>
      cases el.getStr "name" "" with
      | none => rfl
      | some name =>
        exact congrArg (fun renamed => some ((besideRest program applied).proceed renamed))
          (renameEquate_tables validName program equates applied.table id name)
  cases el.get? "id" with
  | none => exact entry (some (-1))
  | some member => exact entry member.getAsLong

theorem applyEquateRefAdds_tables (program : ProgramDB space) (equates : Table Nat Nat) (adds : List Json)
    (applied : EquatesApplied space) :
    adds.foldlM ((tableLibrary validName).applyEquateRefAdd equates) (besideRest program applied) =
      (adds.foldlM (applyEquateRefAdd equates) applied).map (besideRest program) := by
  refine foldlM_follows (fun applied el => ?_) adds applied
  rw [NoteLibrary.applyEquateRefAdd, applyEquateRefAdd]
  by_cases object : el.isObject = false
  · rw [if_pos object, if_pos object]
    rfl
  rw [if_neg object, if_neg object]
  have added (id : Int64) (va : UInt64) (opIndex : Int32) :
      (tableLibrary validName).addEquateRef equates (program, applied.table) id va opIndex =
        (addEquateRef equates applied.table id va opIndex).map fun table => (program, table) := by
    rw [NoteLibrary.addEquateRef, addEquateRef, Option.map_bind]
    refine Option.bind_congr fun key _ => ?_
    dsimp only [Function.comp]
    rw [Option.map_bind]
    rfl
  have read (step : Int64 → UInt64 → Int32 → Option (EquatesApplied space))
      (entries : ∀ id va opIndex, some ((besideRest program applied).attempt
          ((tableLibrary validName).addEquateRef equates (program, applied.table) id va opIndex)) =
        (step id va opIndex).map (besideRest program))
      (id : Option Int64) (va : Option UInt64) (opIndex : Option Int32) :
      (id.bind fun id => va.bind fun va => opIndex.bind fun opIndex =>
        some ((besideRest program applied).attempt
          ((tableLibrary validName).addEquateRef equates (program, applied.table) id va opIndex))) =
        (id.bind fun id => va.bind fun va => opIndex.bind fun opIndex => step id va opIndex).map
          (besideRest program) := by
    cases id with
    | none => rfl
    | some id =>
    cases va with
    | none => rfl
    | some va =>
    cases opIndex with
    | none => rfl
    | some opIndex => exact entries id va opIndex
  cases el.get? "id" <;> cases el.get? "va" <;> cases el.get? "op_index" <;>
    refine read _ (fun id va opIndex => ?_) _ _ _ <;>
    rw [added id va opIndex] <;>
    cases addEquateRef equates applied.table id va opIndex <;> rfl

/-! ### Data types -/

variable (lib : TypeLibrary)

theorem applyStub_tables : (tableStore lib).applyStub = applyStub lib := by
  funext manager el
  rw [TypeStore.applyStub, applyStub]
  rfl

theorem removeType_tables (manager : DataTypeManager) (name : String) :
    (tableStore lib).removeType manager name = some (manager.erase (rootCategory, name)) := by
  rw [TypeStore.removeType]
  cases held : manager.getDataType name with
  | none =>
    have missing : (rootCategory, name) ∉ manager := AList.lookup_eq_none.mp held
    rw [Table.erase_of_not_mem missing]
  | some record => rfl

theorem applyTypeChange_tables : (tableStore lib).applyTypeChange lib = applyTypeChange lib := by
  funext applied el
  rw [TypeStore.applyTypeChange, applyTypeChange]
  by_cases object : el.isObject = false
  · rw [if_pos object, if_pos object]
  rw [if_neg object, if_neg object]
  simp only [Option.bind_eq_bind, removeType_tables]
  refine Option.bind_congr fun op _ => Option.bind_congr fun kind _ => Option.bind_congr fun name _ => ?_
  split
  · rfl
  · split
    · rfl
    · cases rebuild lib applied.manager kind el <;> rfl

/-- The data types array over the tables. -/
theorem applyDataTypes_tables (manager : DataTypeManager) (changes : List Json) :
    (tableStore lib).applyDataTypes lib manager changes = applyDataTypes lib manager changes := by
  rw [TypeStore.applyDataTypes, applyStub_tables, applyTypeChange_tables]
  rfl

end Tables
end GhidraBridge
