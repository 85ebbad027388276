import GhidraBridge.EquateTable
import GhidraBridge.ListingApplier

/-! Which addresses the server's loops accept. An address arrives as unsigned
hexadecimal text and is held as a signed long; three of the six loops that read
one take a negative long for a missing address. -/
namespace GhidraBridge.AddressAcceptance
open Lib ProgramApplier

/-- The loop hands the address to the default address space, acts where it has it and
skips the entry where it does not. -/
def PassesAddress (space : AddressSpace) {S : Type} (body : S → Option S) (act : space.Address → S → S) (a : UInt64) :
    Prop :=
  ∀ s, body s = some ((space.getAddress a).elim s fun addr => act addr s)

/-! ## What each loop does at an address -/

section Acts
variable {space : AddressSpace}

def commentAct (el : Json) (addr : space.Address) (applied : Applied space) : Applied space :=
  let written := setColumns addr el [.eol, .pre, .post, .plate, .repeatable] applied.program
  { program := written.1, count := applied.count + (if written.2 then 1 else 0) }

def equateRefAct (key : Nat) (opIndex : Int32) (addr : space.Address) (applied : EquatesApplied space) :
    EquatesApplied space :=
  match applied.table.addReference key (addr, opIndex) with
  | none => applied
  | some table => { table, count := applied.count + 1 }

def bookmarkAct (b : BookmarkChange) (addr : space.Address) (applied : Applied space) : Applied space :=
  { program := changeBookmark applied.program addr b.op.text b.type b.category b.comment, count := applied.count + 1 }

end Acts

/-- Every category accepts an address, in every program and address space and for every
entry that nothing else makes the loop skip: a symbol and a parameter without a name,
a register local and a reference to an equate that is not there. -/
structure AcceptsAddress (a : UInt64) : Prop where
  symbols : ∀ {space : AddressSpace} {P : Type} (lib : ProgramLibrary space P) (rebase : UInt64) (s : NewSymbol),
    s.name ≠ "" → s.addr - rebase = a →
    PassesAddress space (fun applied => applySymbol lib applied (CheckinJson.newSymbolEntry rebase s))
      (labelAt lib s.name) a
  comments : ∀ {space : AddressSpace} (rebase : UInt64) (functionComments : Table UInt64 String)
    (columns : Table UInt64 CommentField) (c : CommentChange), c.addr - rebase = a →
    PassesAddress space
      (fun applied => applyComment applied (CheckinJson.commentEntry rebase functionComments columns c))
      (commentAct (CheckinJson.commentEntry rebase functionComments columns c)) a
  equateRefs : ∀ {space : AddressSpace} (equates : Table Nat Nat) (rebase : UInt64) (r : NewEquateRef) (key : Nat),
    (keyOf r.equateId).bind equates.lookup = some key → r.addr - rebase = a →
    PassesAddress space
      (fun applied => applyEquateRefAdd equates applied (CheckinJson.equateRefEntry rebase r))
      (equateRefAct key r.opIndex) a
  bookmarks : ∀ {space : AddressSpace} (rebase : UInt64) (b : BookmarkChange), b.addr - rebase = a →
    PassesAddress space (fun applied => applyBookmark applied (CheckinJson.bookmarkEntry rebase b))
      (bookmarkAct b) a
  parameters : ∀ {space : AddressSpace} {P : Type} (lib : ProgramLibrary space P) (types : TypeLibrary)
    (manager : DataTypeManager) (rebase : UInt64) (p : NewParam), p.name ≠ "" → p.isLocal = false →
    p.funcAddr - rebase = a →
    PassesAddress space (fun applied => applyParameter lib types manager applied (CheckinJson.newParamEntry rebase p))
      (parameterAt lib types manager p.ordinal p.name (CheckinJson.newParamEntry rebase p)) a
  dataItems : ∀ {space : AddressSpace} {P : Type} (lib : ProgramLibrary space P) (types : TypeLibrary)
    (manager : DataTypeManager) (rebase : UInt64) (d : DataItemChange), d.addr - rebase = a →
    PassesAddress space (fun applied => applyDataItem lib types manager applied (CheckinJson.dataItemEntry rebase d))
      (dataItemAt lib types manager d.op.text (CheckinJson.dataItemEntry rebase d)) a

/-! ## The loops -/

/-- The text of an address reads back as the address. -/
theorem va_read (rebase addr : UInt64) : (vaJson rebase addr).getAsString.bind parseHexLong = some (addr - rebase) :=
  parseHexLong_toHex (addr - rebase)

/-- An address is negative as a long from the middle of the range on. -/
theorem negative_iff (a : UInt64) : a.toInt64 < 0 ↔ 2 ^ 63 ≤ a.toNat := by
  have sign : a.toInt64.toInt < 0 ↔ 2 ^ 64 ≤ 2 * a.toNat := BitVec.toInt_neg_iff
  rw [Int64.lt_iff_toInt_lt, show (0 : Int64).toInt = 0 from rfl, sign]
  omega

section Loops
variable {space : AddressSpace} {P : Type} (lib : ProgramLibrary space P) (types : TypeLibrary)
  (manager : DataTypeManager) (rebase : UInt64)

theorem symbols_pass (s : NewSymbol) (named : s.name ≠ "") :
    PassesAddress space (fun applied => applySymbol lib applied (CheckinJson.newSymbolEntry rebase s))
      (labelAt lib s.name) (s.addr - rebase) := by
  intro applied
  have name : (CheckinJson.newSymbolEntry rebase s).getStr "name" "" = some s.name := rfl
  have noKey : (CheckinJson.newSymbolEntry rebase s).get? "key" = none := rfl
  have va : (CheckinJson.newSymbolEntry rebase s).get? "va" = some (vaJson rebase s.addr) := rfl
  dsimp only
  rw [applySymbol, if_neg (by simp [CheckinJson.newSymbolEntry, Json.isObject]), name, noKey, va]
  simp only [Option.bind_eq_bind, Option.bind_some, if_neg named, va_read]
  rfl

theorem comments_pass (functionComments : Table UInt64 String) (columns : Table UInt64 CommentField)
    (c : CommentChange) :
    PassesAddress space
      (fun applied => applyComment applied (CheckinJson.commentEntry rebase functionComments columns c))
      (commentAct (CheckinJson.commentEntry rebase functionComments columns c)) (c.addr - rebase) := by
  intro applied
  have va : (CheckinJson.commentEntry rebase functionComments columns c).get? "va" = some (vaJson rebase c.addr) := rfl
  dsimp only
  rw [applyComment, if_neg (by simp [CheckinJson.commentEntry, Json.isObject]), va]
  simp only [va_read, Option.map_some]
  cases space.getAddress (c.addr - rebase) <;> rfl

theorem parameters_pass (p : NewParam) (named : p.name ≠ "") (argument : p.isLocal = false) :
    PassesAddress space (fun applied => applyParameter lib types manager applied (CheckinJson.newParamEntry rebase p))
      (parameterAt lib types manager p.ordinal p.name (CheckinJson.newParamEntry rebase p))
      (p.funcAddr - rebase) := by
  intro applied
  have name : (CheckinJson.newParamEntry rebase p).getStr "name" "" = some p.name := rfl
  have noKey : (CheckinJson.newParamEntry rebase p).get? "key" = none := by
    rw [CheckinJson.newParamEntry, Json.get?, List.lookup_append, optionalText]
    by_cases untyped : p.typeName = ""
    · rw [if_pos untyped]
      rfl
    · rw [if_neg untyped]
      rfl
  have va : (CheckinJson.newParamEntry rebase p).get? "func_va" = some (vaJson rebase p.funcAddr) := rfl
  have ordinal : (CheckinJson.newParamEntry rebase p).get? "ordinal" = some (int32Json p.ordinal) := rfl
  have isLocal : (CheckinJson.newParamEntry rebase p).get? "is_local" = some (.bool p.isLocal) := rfl
  have read : (int32Json p.ordinal).getAsInt = some p.ordinal := Json.getAsInt_toInt p.ordinal
  dsimp only
  rw [applyParameter, if_neg (by simp [CheckinJson.newParamEntry, Json.isObject]), name, noKey, va, ordinal, isLocal]
  simp only [Option.bind_eq_bind, Option.bind_some, if_neg named, va_read, read, Json.getAsBoolean, argument]
  rfl

/-- The loops that take a negative long for a missing address. -/
theorem equateRefs_read (equates : Table Nat Nat) (r : NewEquateRef) {key : Nat}
    (known : (keyOf r.equateId).bind equates.lookup = some key) (applied : EquatesApplied space) :
    applyEquateRefAdd equates applied (CheckinJson.equateRefEntry rebase r) =
      some (if (r.addr - rebase).toInt64 < 0 then applied
        else (space.getAddress (r.addr - rebase)).elim applied fun addr =>
          equateRefAct key r.opIndex addr applied) := by
  have id : (CheckinJson.equateRefEntry rebase r).get? "id" = some (int64Json r.equateId) := rfl
  have va : (CheckinJson.equateRefEntry rebase r).get? "va" = some (vaJson rebase r.addr) := rfl
  have index : (CheckinJson.equateRefEntry rebase r).get? "op_index" = some (int32Json r.opIndex) := rfl
  have idRead : (int64Json r.equateId).getAsLong = some r.equateId := Json.getAsLong_toInt r.equateId
  have indexRead : (int32Json r.opIndex).getAsInt = some r.opIndex := Json.getAsInt_toInt r.opIndex
  rw [applyEquateRefAdd, if_neg (by simp [CheckinJson.equateRefEntry, Json.isObject]), id, va, index]
  simp only [Option.bind_eq_bind, Option.bind_some, idRead, indexRead, va_read, addEquateRef, known]
  by_cases negative : (r.addr - rebase).toInt64 < 0
  · simp only [if_pos negative]
    rfl
  · simp only [if_neg negative]
    cases space.getAddress (r.addr - rebase) with
    | none => rfl
    | some addr =>
      simp only [Option.bind_some, Option.elim_some, equateRefAct]
      cases applied.table.addReference key (addr, r.opIndex) <;> rfl

theorem bookmarks_read (b : BookmarkChange) (applied : Applied space) :
    applyBookmark applied (CheckinJson.bookmarkEntry rebase b) =
      some (if (b.addr - rebase).toInt64 < 0 then applied
        else (space.getAddress (b.addr - rebase)).elim applied fun addr => bookmarkAct b addr applied) := by
  have op : (CheckinJson.bookmarkEntry rebase b).getStr "op" "add" = some b.op.text := rfl
  have type : (CheckinJson.bookmarkEntry rebase b).getStr "type" "Note" = some b.type := rfl
  have category : (CheckinJson.bookmarkEntry rebase b).getStr "category" "" = some b.category := rfl
  have comment : (CheckinJson.bookmarkEntry rebase b).getStr "comment" "" = some b.comment := rfl
  have va : (CheckinJson.bookmarkEntry rebase b).get? "addr" = some (vaJson rebase b.addr) := rfl
  rw [applyBookmark, if_neg (by simp [CheckinJson.bookmarkEntry, Json.isObject]), op, type, category, comment, va]
  simp only [Option.bind_eq_bind, Option.bind_some, va_read]
  by_cases negative : (b.addr - rebase).toInt64 < 0
  · simp only [if_pos negative]
    rfl
  · simp only [if_neg negative]
    cases space.getAddress (b.addr - rebase) <;> rfl

theorem dataItems_read (d : DataItemChange) (applied : Counted P) :
    applyDataItem lib types manager applied (CheckinJson.dataItemEntry rebase d) =
      some (if (d.addr - rebase).toInt64 < 0 then applied
        else (space.getAddress (d.addr - rebase)).elim applied fun addr =>
          dataItemAt lib types manager d.op.text (CheckinJson.dataItemEntry rebase d) addr applied) := by
  have op : (CheckinJson.dataItemEntry rebase d).getStr "op" "add" = some d.op.text := rfl
  have va : (CheckinJson.dataItemEntry rebase d).get? "addr" = some (vaJson rebase d.addr) := rfl
  rw [applyDataItem, if_neg (by simp [CheckinJson.dataItemEntry, Json.isObject]), op, va]
  simp only [Option.bind_eq_bind, Option.bind_some, va_read]
  by_cases negative : (d.addr - rebase).toInt64 < 0
  · simp only [if_pos negative]
    rfl
  · simp only [if_neg negative]
    rfl

end Loops

/-- Every category accepts an address exactly when it is in the lower half of the
range. -/
theorem accepts_address_iff (a : UInt64) : AcceptsAddress a ↔ a.toNat < 2 ^ 63 := by
  constructor
  · intro accepts
    by_contra high
    have negative := (negative_iff a).mpr (Nat.le_of_not_lt high)
    have passed := accepts.bookmarks 0 ⟨.add, "Note", a, "", ""⟩ (by simp) ({ program := {} } : Applied {})
    simp only [bookmarks_read, UInt64.sub_zero, if_pos negative, Option.some.injEq] at passed
    have counted := congrArg Applied.count passed
    simp [AddressSpace.getAddress, bookmarkAct] at counted
  · intro low
    have positive : ¬a.toInt64 < 0 := by
      rw [negative_iff]
      omega
    constructor
    · rintro space P lib rebase s named rfl
      exact symbols_pass lib rebase s named
    · rintro space rebase functionComments columns c rfl
      exact comments_pass rebase functionComments columns c
    · rintro space equates rebase r key known rfl applied
      dsimp only
      rw [equateRefs_read rebase equates r known, if_neg positive]
    · rintro space rebase b rfl applied
      dsimp only
      rw [bookmarks_read, if_neg positive]
    · rintro space P lib types manager rebase p named argument rfl
      exact parameters_pass lib types manager rebase p named argument
    · rintro space P lib types manager rebase d rfl applied
      dsimp only
      rw [dataItems_read, if_neg positive]

/-- In the upper half a comment is written, and a bookmark at the same address is
skipped. -/
theorem high_bookmark_skipped :
    ¬AcceptsAddress 0xffff800000001000 ∧
    ((applyComments ({} : ProgramDB {}) [CheckinJson.commentEntry 0 ∅ ∅ ⟨0xffff800000001000, "entry", ""⟩]).map
      Applied.count) = some 1 ∧
    ((applyBookmarks ({} : ProgramDB {})
      [CheckinJson.bookmarkEntry 0 ⟨.add, "Note", 0xffff800000001000, "", "entry"⟩]).map Applied.count) = some 0 := by
  refine ⟨fun accepts => ?_, by decide +kernel, by decide +kernel⟩
  have passed := accepts.bookmarks 0 ⟨.add, "Note", 0xffff800000001000, "", "entry"⟩ rfl
    ({ program := {} } : Applied {})
  have skipped : (applyBookmark ({ program := {} } : Applied {})
      (CheckinJson.bookmarkEntry 0 ⟨.add, "Note", 0xffff800000001000, "", "entry"⟩)).map Applied.count = some 0 := by
    decide +kernel
  simp only [passed] at skipped
  simp [AddressSpace.getAddress, bookmarkAct] at skipped

end GhidraBridge.AddressAcceptance
