import GhidraBridge.FailingCalls
import GhidraBridge.Lib.Tally

/-! The nine arrays of a check-in as loops over one program (`apply` of
`ProgramApplier.java`), and what an entry of each asks for: the whole of it, so that of an
entry that ends half done it does not hold. What can be seen of a program is given by a
view; its laws say what a call leaves that does not throw. -/
namespace GhidraBridge.AppliedEffects
open Lib Lib.Tally ProgramApplier

/-- The arrays of a request. -/
inductive Category where
  | dataTypes | symbols | comments | equateRenames | equateRefAdds | bookmarks | params | dataItems | funcSigs
  deriving DecidableEq

/-- A program: its types, its comments, bookmarks and equates, and the rest. -/
structure Program (N P : Type) where
  manager : DataTypeManager
  notes : N
  listing : P

/-- All calls into Ghidra. -/
structure Ghidra (space : AddressSpace) (N P : Type) where
  types : TypeLibrary
  store : TypeStore
  notes : NoteLibrary space N
  listing : ProgramLibrary space P

/-! ## The loops -/

section Loops
variable {space : AddressSpace} {N P : Type}

def listingLoop (step : DataTypeManager → Counted P → Json → Option (Counted P)) : Loop (Program N P) Json where
  S := Counted P
  enter q _ := some { program := q.listing }
  step q := step q.manager
  program q s := { q with listing := s.program }
  count := Counted.count

def notesLoop (step : N → Counted N → Json → Option (Counted N)) : Loop (Program N P) Json where
  S := Counted N
  enter q _ := some { program := q.notes }
  step q := step q.notes
  program q s := { q with notes := s.program }
  count := Counted.count

/-- The first pass over the types is made on entry. -/
def typesLoop (g : Ghidra space N P) : Loop (Program N P) Json where
  S := TypesApplied
  enter q items := (items.foldlM g.store.applyStub q.manager).map fun stubbed => { manager := stubbed }
  step _ := g.store.applyTypeChange g.types
  program q s := { q with manager := s.manager }
  count := TypesApplied.count

def loopOf (g : Ghidra space N P) : Category → Loop (Program N P) Json
  | .dataTypes => typesLoop g
  | .symbols => listingLoop fun _ => applySymbol g.listing
  | .comments => notesLoop fun _ => g.notes.applyComment
  | .equateRenames => notesLoop fun before => g.notes.applyEquateRename (g.notes.byKey before)
  | .equateRefAdds => notesLoop fun before => g.notes.applyEquateRefAdd (g.notes.byKey before)
  | .bookmarks => notesLoop fun _ => g.notes.applyBookmark
  | .params => listingLoop fun manager => applyParameter g.listing g.types manager
  | .dataItems => listingLoop fun manager => applyDataItem g.listing g.types manager
  | .funcSigs => listingLoop fun manager => applyFuncSig g.listing g.types manager

/-- Data types come first, so that the others can refer to them. -/
def order : List Category :=
  [.dataTypes, .symbols, .comments, .equateRenames, .equateRefAdds, .bookmarks, .params, .dataItems, .funcSigs]

/-- The program after a request, and the number reported for each array. -/
def apply (g : Ghidra space N P) (program : Program N P) (request : Category → List Json) :
    Option (Program N P × (Category → Nat)) := runAll (loopOf g) request order program

/-- The loops are those of the arrays. -/
theorem typesLoop_run (g : Ghidra space N P) (q : Program N P) (changes : List Json) :
    (typesLoop g).run q changes =
      (g.store.applyDataTypes g.types q.manager changes).map fun applied =>
        ({ q with manager := applied.manager }, applied.count) := by
  rw [Loop.run, TypeStore.applyDataTypes, typesLoop]
  dsimp only
  cases changes.foldlM g.store.applyStub q.manager with
  | none => rfl
  | some stubbed =>
    rw [Option.map_some, Option.bind_eq_bind, Option.bind_some, Option.bind_eq_bind, Option.bind_some]
    cases changes.foldlM (g.store.applyTypeChange g.types) { manager := stubbed } <;> rfl

theorem listingLoop_run (step : DataTypeManager → Counted P → Json → Option (Counted P)) (q : Program N P)
    (items : List Json) :
    (listingLoop step).run q items =
      (items.foldlM (step q.manager) { program := q.listing }).map fun applied =>
        ({ q with listing := applied.program }, applied.count) := by
  rw [Loop.run, listingLoop, Option.bind_eq_bind, Option.bind_some]
  dsimp only
  cases items.foldlM (step q.manager) { program := q.listing } <;> rfl

theorem notesLoop_run (step : N → Counted N → Json → Option (Counted N)) (q : Program N P) (items : List Json) :
    (notesLoop step).run q items =
      (items.foldlM (step q.notes) { program := q.notes }).map fun applied =>
        ({ q with notes := applied.program }, applied.count) := by
  rw [Loop.run, notesLoop, Option.bind_eq_bind, Option.bind_some]
  dsimp only
  cases items.foldlM (step q.notes) { program := q.notes } <;> rfl

end Loops

/-! ## What can be seen of a program -/

/-- What calls on symbols, variables, data and signatures are about. -/
inductive Spot (space : AddressSpace) where
  | symbol (key : Int64)
  | label (addr : space.Address) (name : String)
  | parameter (addr : space.Address) (ordinal : Nat)
  | data (addr : space.Address)
  | signature (key : Int64)

/-- What can be seen of a program beside its types and equates. -/
structure View (space : AddressSpace) (N P : Type) where
  commentAt : N → space.Address → CommentType → Option String
  /-- The comment of the bookmark of an address, type and category. -/
  bookmarkAt : N → space.Address × String × String → Option String
  symbolName : P → Int64 → Option String
  hasLabel : P → space.Address → String → Prop
  variableType : P → Int64 → Option DataTypeRef
  parameterName : P → space.Address → Nat → Option String
  parameterType : P → space.Address → Nat → Option DataTypeRef
  dataAt : P → space.Address → Option DataTypeRef
  returnType : P → Int64 → Option DataTypeRef
  convention : P → Int64 → Option String
  /-- In the program, calls about the first leave what can be seen of the second. -/
  apart : P → Spot space → Spot space → Prop

section Laws
variable {space : AddressSpace} {N P : Type}

/-- What a call on symbols, variables, data and signatures leaves if it does not throw. -/
structure ListingLaws (lib : ProgramLibrary space P) (view : View space N P) : Prop where
  setName : ∀ {p p' key name}, lib.setName p key name = some p' → view.symbolName p' key = some name
  createLabel : ∀ {p p' addr name}, lib.createLabel p addr name = some p' → view.hasLabel p' addr name
  setVariableType : ∀ {p p' key type}, lib.setVariableType p key type = some p' →
    view.variableType p' key = some type ∧ view.symbolName p' key = view.symbolName p key
  setParameterName : ∀ {p p' addr i name}, lib.setParameterName p addr i name = some p' →
    view.parameterName p' addr i = some name
  setParameterType : ∀ {p p' addr i type}, lib.setParameterType p addr i type = some p' →
    view.parameterType p' addr i = some type ∧ view.parameterName p' addr i = view.parameterName p addr i
  addParameter : ∀ {p p' addr n name type}, lib.countParameters p addr = some n →
    lib.addParameter p addr name type = some p' →
    view.parameterName p' addr n = some name ∧ ∀ given ∈ type, view.parameterType p' addr n = some given
  getDataAt : ∀ {p addr}, lib.getDataAt p addr = none → view.dataAt p addr = none
  clearCodeUnits : ∀ {p p' addr last}, lib.getDataAt p addr = some last → lib.clearCodeUnits p addr last = some p' →
    view.dataAt p' addr = none
  createData : ∀ {p p' addr type}, lib.createData p addr type = some p' → view.dataAt p' addr = some type
  setReturnType : ∀ {p p' key type}, lib.setReturnType p key type = some p' → view.returnType p' key = some type
  setCallingConvention : ∀ {p p' key name}, lib.setCallingConvention p key name = some p' →
    view.convention p' key = some name ∧ view.returnType p' key = view.returnType p key ∧
      lib.callingConventions p' = lib.callingConventions p

/-- The same for comments, bookmarks and equates. -/
structure NoteLaws (lib : NoteLibrary space N) (view : View space N P) : Prop where
  setComment : ∀ {n n' addr type text}, lib.setComment n addr type text = some n' →
    view.commentAt n' addr type = text ∧ ∀ other, other ≠ type →
      view.commentAt n' addr other = view.commentAt n addr other
  getBookmarks : ∀ {n addr type keys category}, lib.getBookmarks n addr type = some keys →
    view.bookmarkAt n (addr, type, category) ≠ none → (addr, type, category) ∈ keys
  removeBookmark : ∀ {n n' key}, lib.removeBookmark n key = some n' →
    view.bookmarkAt n' key = none ∧ ∀ other, view.bookmarkAt n other = none → view.bookmarkAt n' other = none
  setBookmark : ∀ {n n' addr type category comment}, lib.setBookmark n addr type category comment = some n' →
    view.bookmarkAt n' (addr, type, category) = some comment
  byKey : ∀ {n key found}, (lib.byKey n).lookup key = some found → found = key
  createEquate : ∀ {n n' name value key}, lib.createEquate n name value = some (key, n') →
    lib.getEquate n' key = some { name, value }
  addReference : ∀ {n n' key ref}, lib.addReference n key ref = some n' →
    ∃ record, lib.getEquate n key = some record ∧
      lib.getEquate n' key = some { record with refs := record.refs.insert ref }

/-- The same for the building and storing of types. A member at or beyond the end, of a
type of its length, goes behind the others; `getLength` of an empty structure is 1. -/
structure TypeLaws (types : TypeLibrary) (store : TypeStore) : Prop where
  insertAtOffset : ∀ {manager s s' offset type length name comment}, s.length ≤ offset →
    types.getLength manager type = length → types.insertAtOffset s offset type length name comment = some s' →
    s'.components = s.components ++ [⟨name, offset, length, type, comment⟩]
  add : ∀ {manager s s' type length name comment}, types.getLength manager type = length →
    types.add s type length name comment = some s' →
    ∃ offset, s'.components = s.components ++ [⟨name, offset, length, type, comment⟩]
  addToUnion : ∀ {manager u u' type length name comment}, types.getLength manager type = length →
    types.addToUnion u type length name comment = some u' →
    ∃ offset, u'.components = u.components ++ [⟨name, offset, length, type, comment⟩]
  growStructure : ∀ s amount, 0 < amount → types.growStructure s amount = { s with length := s.length + amount }
  structureLength : ∀ s, types.structureLength s = if s.length = 0 then 1 else s.length
  addEntry : ∀ {length entries entries' name value comment},
    types.addEntry length entries name value comment = some entries' →
    ∀ e, e ∈ entries' ↔ e ∈ entries ∨ e = ⟨name, value, comment⟩
  addDataType : ∀ {manager name content stored}, store.addDataType manager name content = some stored →
    ∃ record, stored.1.getDataType name = some record ∧ record.content = content
  remove : ∀ {manager manager' name}, store.remove manager name = some manager' → manager'.getDataType name = none

structure Laws (g : Ghidra space N P) (view : View space N P) : Prop where
  types : TypeLaws g.types g.store
  notes : NoteLaws g.notes view
  listing : ListingLaws g.listing view

end Laws

/-! ## What an entry asks for -/

/-- The type a name spells: the one of the root category, or what the parser makes of it. -/
def givenType (types : TypeLibrary) (manager : DataTypeManager) (text : String) : Option DataTypeRef :=
  let trimmed := String.ofList (normalizePrimitives types (trim text.toList))
  (storedRef manager trimmed).or (types.parse manager trimmed)

/-- The type name an entry gives under a key, if it gives one. -/
def typeAsked (c : Json) (key : String) : Option String :=
  ((c.get? key).bind Json.getAsString).filter fun text => text ≠ ""

/-- The type is the one asked for, if one is. -/
def IsAsked (types : TypeLibrary) (manager : DataTypeManager) (c : Json) (key : String) (type : Option DataTypeRef) :
    Prop :=
  ∀ text ∈ typeAsked c key, ∃ given, givenType types manager text = some given ∧ type = some given

def addressOf (space : AddressSpace) (el : Json) (key : String) : Option space.Address :=
  (el.get? key).bind fun member => (member.getAsString.bind parseHexLong).bind space.getAddress

/-- The loops over data and bookmarks skip an address that is negative as a long. -/
def positiveAddress (space : AddressSpace) (el : Json) (key : String) : Option space.Address :=
  (el.get? key).bind fun member => (member.getAsString.bind parseHexLong).bind fun va =>
    if va.toInt64 < 0 then none else space.getAddress va

def isLocalAsked (el : Json) : Option Bool :=
  match el.get? "is_local" with
  | some member => member.getAsBoolean
  | none => some false

def keyAsked (el : Json) : Option Nat := ((el.get? "id").bind Json.getAsLong).bind keyOf

/-- The address a loop reads under a key and finds in the space. -/
theorem addressOf_eq {space : AddressSpace} {el : Json} {key : String} {member : Json} {va : UInt64}
    {addr : space.Address}
    (read : el.get? key = some member) (parsed : member.getAsString.bind parseHexLong = some va)
    (inside : space.getAddress va = some addr) : addressOf space el key = some addr := by
  rw [addressOf, read, Option.bind_some, parsed, Option.bind_some, inside]

theorem positiveAddress_eq {space : AddressSpace} {el : Json} {key : String} {member : Json} {va : UInt64}
    {addr : space.Address}
    (read : el.get? key = some member) (parsed : member.getAsString.bind parseHexLong = some va)
    (nonneg : ¬va.toInt64 < 0) (inside : space.getAddress va = some addr) :
    positiveAddress space el key = some addr := by
  rw [positiveAddress, read, Option.bind_some, parsed, Option.bind_some, if_neg nonneg, inside]

/-- The member is there with its name, type, comment, length and, in a structure, offset. -/
structure MemberShown (types : TypeLibrary) (manager : DataTypeManager) (placed : Prop) (mel : Json) (c : Component) :
    Prop where
  name : ∃ name, mel.getStr "name" "" = some name ∧ c.fieldName = nullIfEmpty name
  type : ∃ text, mel.getStr "type_name" "" = some text ∧ givenType types manager text = some c.dataType
  comment : ∃ comment, mel.getStr "comment" "" = some comment ∧ c.comment = nullIfEmpty comment
  size : ∀ size, intOr mel "size" 0 = some size → 0 < size → c.length = size
  offset : placed → ∀ offset, intOr mel "offset" (-1) = some offset → 0 ≤ offset → c.offset = offset

/-- A number that may be missing. -/
def longOr (c : Json) (key : String) (dflt : Int64) : Option Int64 :=
  match c.get? key with
  | some member => member.getAsLong
  | none => some dflt

/-- The value is there with its name and comment. -/
def ValueShown (vel : Json) (e : EnumEntry) : Prop :=
  vel.getStr "name" "" = some e.name ∧ longOr vel "value" 0 = some e.value ∧
    ∃ comment, vel.getStr "comment" "" = some comment ∧ e.comment = nullIfEmpty comment

/-- The length is the size asked for, if one is. -/
def SizeShown (el : Json) (length : Int32) : Prop :=
  ∀ size, (el.get? "size").map Json.getAsInt = some (some size) → length = size

/-- The type names in an entry of the types. -/
def NamesType (el : Json) (text : String) : Prop :=
  el.getStr "underlying_type_name" "" = some text ∨
    ∃ members, arrayOr el "members" = some members ∧ ∃ mel ∈ members, mel.getStr "type_name" "" = some text

/-- All an entry says of its type is in the content. -/
def ContentShown (types : TypeLibrary) (manager : DataTypeManager) (kind : String) (el : Json) (content : TypeContent) :
    Prop :=
  if kind = "struct" then
    ∃ layout members, content = .composite false layout ∧ SizeShown el layout.length ∧
      arrayOr el "members" = some members ∧
      ∀ mel ∈ members, ∃ c ∈ layout.components, MemberShown types manager True mel c
  else if kind = "union" then
    ∃ layout members, content = .composite true layout ∧ arrayOr el "members" = some members ∧
      ∀ mel ∈ members, ∃ c ∈ layout.components, MemberShown types manager False mel c
  else if kind = "enum" then
    ∃ length entries values, content = .enumeration length entries ∧ SizeShown el length ∧
      arrayOr el "values" = some values ∧ ∀ vel ∈ values, ∃ e ∈ entries, ValueShown vel e
  else if kind = "typedef" then
    ∃ text given, el.getStr "underlying_type_name" "" = some text ∧ givenType types manager text = some given ∧
      content = .typedef given
  else False

section Present
variable {space : AddressSpace} {N P : Type} (g : Ghidra space N P) (view : View space N P) (start q : Program N P)
  (el : Json)

/-- A type that was there is gone, or the type is there as the entry has it. -/
def typePresent : Prop :=
  ∃ op kind name, el.getStr "op" "add" = some op ∧ el.getStr "kind" "" = some kind ∧ el.getStr "name" "" = some name ∧
    if op = "delete" then start.manager.getDataType name ≠ none ∧ q.manager.getDataType name = none
    else ∃ record, q.manager.getDataType name = some record ∧ ContentShown g.types q.manager kind el record.content

def symbolPresent : Prop :=
  ∃ name, el.getStr "name" "" = some name ∧
    match el.get? "key", el.get? "va" with
    | some member, _ => ∃ key, member.getAsLong = some key ∧ view.symbolName q.listing key = some name
    | none, some _ => ∃ addr, addressOf space el "va" = some addr ∧ view.hasLabel q.listing addr name
    | none, none => False

def commentPresent : Prop :=
  ∃ addr, addressOf space el "va" = some addr ∧ ∀ type : CommentType, ∀ member, el.get? type.field = some member →
    ∃ text, member.getAsString = some text ∧ view.commentAt q.notes addr type = nullIfEmpty text

/-- There is an equate of the new name with the value and all references of the old one. -/
def equateRenamePresent : Prop :=
  ∃ key name old newKey record, keyAsked el = some key ∧ el.getStr "name" "" = some name ∧
    g.notes.getEquate start.notes key = some old ∧ g.notes.getEquate q.notes newKey = some record ∧
    record.name = name ∧ record.value = old.value ∧ ∀ ref ∈ old.refs, ref ∈ record.refs

def equateRefPresent : Prop :=
  ∃ key addr opIndex record, keyAsked el = some key ∧ addressOf space el "va" = some addr ∧
    intOr el "op_index" 0 = some opIndex ∧ g.notes.getEquate q.notes key = some record ∧ (addr, opIndex) ∈ record.refs

/-- A bookmark that was there is gone, or the bookmark is there with its comment. -/
def bookmarkPresent : Prop :=
  ∃ op type category comment addr, el.getStr "op" "add" = some op ∧ el.getStr "type" "Note" = some type ∧
    el.getStr "category" "" = some category ∧ el.getStr "comment" "" = some comment ∧
    addressOf space el "addr" = some addr ∧
    if op = "delete" then
      view.bookmarkAt start.notes (addr, type, category) ≠ none ∧ view.bookmarkAt q.notes (addr, type, category) = none
    else view.bookmarkAt q.notes (addr, type, category) = some comment

def paramPresent : Prop :=
  ∃ name, el.getStr "name" "" = some name ∧
    match el.get? "key", el.get? "func_va", el.get? "ordinal" with
    | some member, _, _ =>
      ∃ key, member.getAsLong = some key ∧ view.symbolName q.listing key = some name ∧
        IsAsked g.types q.manager el "type_name" (view.variableType q.listing key)
    | none, some _, some ordinal =>
      ∃ addr i, addressOf space el "func_va" = some addr ∧ ordinal.getAsInt = some i ∧ 0 ≤ i ∧
        view.parameterName q.listing addr i.toInt.toNat = some name ∧
        IsAsked g.types q.manager el "type_name" (view.parameterType q.listing addr i.toInt.toNat)
    | _, _, _ => False

/-- Data that was there is gone, or the data is there with its type. -/
def dataItemPresent : Prop :=
  ∃ op addr, el.getStr "op" "add" = some op ∧ addressOf space el "addr" = some addr ∧
    if op = "delete" then view.dataAt start.listing addr ≠ none ∧ view.dataAt q.listing addr = none
    else ∃ text given, el.getStr "type_name" "" = some text ∧ givenType g.types q.manager text = some given ∧
      view.dataAt q.listing addr = some given

def funcSigPresent : Prop :=
  ∃ key cc, (el.get? "key").bind Json.getAsLong = some key ∧
    IsAsked g.types q.manager el "ret_type" (view.returnType q.listing key) ∧ el.getStr "cc" "" = some cc ∧
    (cc ≠ "" → ∃ name, knownConvention (g.listing.callingConventions q.listing) cc = some name ∧
      view.convention q.listing key = some name)

/-- The whole of what an entry asks for is in the program. -/
def present : Category → Program N P → Json → Prop
  | .dataTypes => typePresent g start
  | .symbols => symbolPresent view
  | .comments => commentPresent view
  | .equateRenames => equateRenamePresent g start
  | .equateRefAdds => equateRefPresent g
  | .bookmarks => bookmarkPresent view start
  | .params => paramPresent g view
  | .dataItems => dataItemPresent g view start
  | .funcSigs => funcSigPresent g view

end Present

/-! ## A build in which nothing goes wrong -/

section Landing
variable (types : TypeLibrary) (manager : DataTypeManager)

/-- The type of a name that is not empty. -/
def spelledType (text : String) : Option DataTypeRef := if text = "" then none else givenType types manager text

/-- One member of a structure. Its type name spells a type, of the length the member is
placed with; it stands at or beyond the end of those before; and the call does not throw. -/
def memberLands (s : Layout) (mel : Json) : Option Layout :=
  if mel.isObject = false then none
  else do
    let name ← mel.getStr "name" ""
    let typeName ← mel.getStr "type_name" ""
    let comment ← mel.getStr "comment" ""
    let size ← intOr mel "size" 0
    let offset ← intOr mel "offset" (-1)
    let type ← spelledType types manager typeName
    let length := if 0 < size then size else types.getLength manager type
    if types.getLength manager type ≠ length ∨ 0 ≤ offset ∧ offset < s.length then none
    else if 0 ≤ offset then types.insertAtOffset s offset type length (nullIfEmpty name) (nullIfEmpty comment)
    else types.add s type length (nullIfEmpty name) (nullIfEmpty comment)

/-- One member of a union. -/
def unionMemberLands (u : Layout) (mel : Json) : Option Layout :=
  if mel.isObject = false then none
  else do
    let name ← mel.getStr "name" ""
    let typeName ← mel.getStr "type_name" ""
    let comment ← mel.getStr "comment" ""
    let size ← intOr mel "size" 0
    let type ← spelledType types manager typeName
    let length := if 0 < size then size else types.getLength manager type
    if types.getLength manager type ≠ length then none
    else types.addToUnion u type length (nullIfEmpty name) (nullIfEmpty comment)

/-- One value of an enum. -/
def valueLands (length : Int32) (entries : List EnumEntry) (vel : Json) : Option (List EnumEntry) :=
  if vel.isObject = false then none
  else do
    let name ← vel.getStr "name" ""
    let value ← longOr vel "value" 0
    let comment ← vel.getStr "comment" ""
    if name = "" then none else types.addEntry length entries name value (nullIfEmpty comment)

/-- The members end within the size asked for, and fill some of it if it is not 0. -/
def sizeReached (el : Json) (size : Int32) (s : Layout) : Bool :=
  0 ≤ s.length && ((el.get? "size").isNone || (s.length ≤ size && (s.length ≠ 0 || size = 0)))

/-- The new type of an entry, where every call for it does what the entry asks. -/
def landing (kind : String) (el : Json) : Option TypeContent :=
  if kind = "struct" then do
    let size ← intOr el "size" 0
    let members ← arrayOr el "members"
    let s ← members.foldlM (memberLands types manager) {}
    let length := types.structureLength s
    if sizeReached el size s then
      return .composite false (if length < size then types.growStructure s (size - length) else s)
    else none
  else if kind = "union" then do
    let members ← arrayOr el "members"
    let u ← members.foldlM (unionMemberLands types manager) {}
    return .composite true u
  else if kind = "enum" then do
    let size ← intOr el "size" 4
    let length ← enumLength size
    let values ← arrayOr el "values"
    let entries ← values.foldlM (valueLands types length) []
    if (el.get? "size").isSome ∧ length ≠ size then none else return .enumeration length entries
  else if kind = "typedef" then do
    let under ← el.getStr "underlying_type_name" ""
    (spelledType types manager under).map .typedef
  else none

/-- What a type name spells stays what it is. -/
def KeepsNames (after : DataTypeManager) : Prop :=
  ∀ text type, givenType types manager text = some type → givenType types after text = some type

end Landing

/-! ## The conditions -/

section Conditions
variable {space : AddressSpace} {N P : Type} (g : Ghidra space N P) (view : View space N P)
  (start before q : Program N P) (el : Json)

/-- A type to delete was there; one that is built and stored is built as asked, and stored
without a change to what type names spell. -/
def typeMeets : Prop :=
  ∀ op kind name, el.getStr "op" "add" = some op → el.getStr "kind" "" = some kind → el.getStr "name" "" = some name →
    name ≠ "" →
    if op = "delete" then g.store.removeType q.manager name ≠ none → start.manager.getDataType name ≠ none
    else ∀ content stored, rebuild g.types q.manager kind el = some content →
      g.store.addDataType q.manager name content = some stored →
      (landing g.types q.manager kind el).isSome ∧ KeepsNames g.types q.manager stored.1

/-- No earlier entry has changed the equate, and no reference is refused. -/
def equateRenameMeets : Prop :=
  ∀ key name old, keyAsked el = some key → el.getStr "name" "" = some name → name ≠ "" →
    (g.notes.byKey before.notes).lookup key ≠ none → g.notes.getEquate q.notes key = some old →
    ∀ removed newKey created, g.notes.removeEquate q.notes old.name = some removed →
      g.notes.createEquate removed name old.value = some (newKey, created) →
      g.notes.getEquate start.notes key = some old ∧
        (old.refs.list.foldlM (fun current ref => g.notes.addReference current newKey ref) created).isSome

/-- A bookmark to delete was there, unless one at its place cannot be removed. -/
def bookmarkMeets : Prop :=
  ∀ type category addr keys, el.getStr "op" "add" = some "delete" → el.getStr "type" "Note" = some type →
    el.getStr "category" "" = some category → positiveAddress space el "addr" = some addr →
    g.notes.getBookmarks q.notes addr type = some keys → (keys.foldlM g.notes.removeBookmark q.notes).isSome →
    view.bookmarkAt start.notes (addr, type, category) ≠ none

/-- A type that is asked for is spelled by its name and can be set, and a new parameter goes
behind the last and can be added. -/
def paramMeets : Prop :=
  ∀ name, el.getStr "name" "" = some name → name ≠ "" →
    match el.get? "key", el.get? "func_va", el.get? "ordinal" with
    | some member, _, _ =>
      ∀ key p, member.getAsLong = some key → g.listing.hasSymbol q.listing key = true →
        g.listing.setName q.listing key name = some p →
        (typeAsked el "type_name" ≠ none → g.listing.isVariable p key = true) ∧
          ∀ type, resolveOptional g.types q.manager el "type_name" = some type →
            IsAsked g.types q.manager el "type_name" type ∧
              ∀ given ∈ type, (g.listing.setVariableType p key given).isSome
    | none, some _, some ordinal =>
      isLocalAsked el = some false →
      ∀ addr i n type, addressOf space el "func_va" = some addr → ordinal.getAsInt = some i →
        g.listing.hasFunctionAt q.listing addr = true → g.listing.countParameters q.listing addr = some n →
        resolveOptional g.types q.manager el "type_name" = some type →
          if 0 ≤ i ∧ i.toInt < n then
            ∀ p, g.listing.setParameterName q.listing addr i.toInt.toNat name = some p →
              IsAsked g.types q.manager el "type_name" type ∧
                ∀ given ∈ type, (g.listing.setParameterType p addr i.toInt.toNat given).isSome
          else IsAsked g.types q.manager el "type_name" type ∧ i.toInt = n ∧
            (g.listing.addParameter q.listing addr name type).isSome
    | _, _, _ => True

/-- Data to delete was there, and the type of new data is spelled by its name. -/
def dataItemMeets : Prop :=
  ∀ op addr, el.getStr "op" "add" = some op → positiveAddress space el "addr" = some addr →
    if op = "delete" then clearAt g.listing addr q.listing ≠ none → view.dataAt start.listing addr ≠ none
    else ∀ text type cleared, el.getStr "type_name" "" = some text →
      resolveDataType g.types q.manager text = some (some type) →
      clearAt g.listing addr q.listing = some cleared → (g.listing.createData cleared addr type).isSome →
      givenType g.types q.manager text = some type

/-- The return type and the convention can both be set, or neither. -/
def funcSigMeets : Prop :=
  ∀ key cc type, (el.get? "key").bind Json.getAsLong = some key → g.listing.hasFunction q.listing key = some true →
    el.getStr "cc" "" = some cc → resolveOptional g.types q.manager el "ret_type" = some type →
    let typed := type.bind fun given => g.listing.setReturnType q.listing key given
    let p := typed.getD q.listing
    let convention := if cc = "" then none else
      (knownConvention (g.listing.callingConventions p) cc).bind fun name => g.listing.setCallingConvention p key name
    typed = none ∧ convention = none ∨
      IsAsked g.types q.manager el "ret_type" type ∧ (type ≠ none → typed ≠ none) ∧ (cc ≠ "" → convention ≠ none)

/-- What an entry and the program before it have to meet. A symbol, a comment and a reference
are only counted when they are there. -/
def meets : Category → Program N P → Program N P → Json → Prop
  | .dataTypes => fun _ => typeMeets g start
  | .equateRenames => equateRenameMeets g start
  | .bookmarks => fun _ => bookmarkMeets g view start
  | .params => fun _ => paramMeets g
  | .dataItems => fun _ => dataItemMeets g view start
  | .funcSigs => fun _ => funcSigMeets g
  | .symbols | .comments | .equateRefAdds => fun _ _ _ => True

/-- The columns of a comments array, in the order they are set. -/
def columns : List CommentType := [.eol, .pre, .post, .plate, .repeatable]

/-- One column of an entry that has it, nothing where its value or the call throws. -/
def columnLands (addr : space.Address) (n : N) (type : CommentType) : Option N :=
  match el.get? type.field with
  | none => some n
  | some member => member.getAsString.bind fun text => g.notes.setComment n addr type (nullIfEmpty text)

/-- The entry does not end half done: no column is refused, the type of a variable can be
looked for, and data that was cleared is made anew. -/
def Whole : Category → Prop
  | .comments => ∀ addr, addressOf space el "va" = some addr → (columns.foldlM (columnLands g el addr) q.notes).isSome
  | .params => resolveOptional g.types q.manager el "type_name" ≠ none
  | .dataItems => ∀ addr text type cleared, positiveAddress space el "addr" = some addr →
      el.getStr "type_name" "" = some text → resolveDataType g.types q.manager text = some (some type) →
      clearAt g.listing addr q.listing = some cleared → (g.listing.createData cleared addr type).isSome
  | .bookmarks => el.getStr "op" "add" ≠ some "delete"
  | .equateRenames => False
  | .dataTypes | .symbols | .equateRefAdds | .funcSigs => True

end Conditions
end GhidraBridge.AppliedEffects
