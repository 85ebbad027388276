import GhidraBridge.AppliedTypes

/-! What an entry of a check-in leaves alone. A call into Ghidra is about one thing, and so is
an entry, so an entry takes nothing from an earlier one that is about something else. -/
namespace GhidraBridge.AppliedFrames
open Lib Lib.Fold Lib.Tally ProgramApplier AppliedEffects AppliedSteps

/-- What an entry can be about. -/
inductive Thing (space : AddressSpace) where
  | type (name : String)
  | comment (addr : space.Address) (type : CommentType)
  | equate (name : String)
  | bookmark (key : space.Address × String × String)
  | noBookmark (key : space.Address × String × String)
  | spot (spot : Spot space)

/-! ## What calls leave alone -/

section Frames
variable {space : AddressSpace} {N P : Type}

/-- What can be seen of a spot is the same after a call. -/
def SameSpot (lib : ProgramLibrary space P) (view : View space N P) (p p' : P) : Spot space → Prop
  | .symbol key => view.symbolName p' key = view.symbolName p key ∧ view.variableType p' key = view.variableType p key
  | .label addr name => view.hasLabel p addr name → view.hasLabel p' addr name
  | .parameter addr i =>
    view.parameterName p' addr i = view.parameterName p addr i ∧
      view.parameterType p' addr i = view.parameterType p addr i
  | .data addr => view.dataAt p' addr = view.dataAt p addr
  | .signature key =>
    view.returnType p' key = view.returnType p key ∧ view.convention p' key = view.convention p key ∧
      lib.callingConventions p' = lib.callingConventions p

/-- A call about a spot: the spots apart from it are as they were, and apart from it. -/
def Leaves (lib : ProgramLibrary space P) (view : View space N P) (own : Spot space) (p p' : P) : Prop :=
  ∀ spot, view.apart p own spot → view.apart p' own spot ∧ SameSpot lib view p p' spot

/-- Each call on symbols, variables, data and signatures is about one spot. -/
structure ListingFrames (lib : ProgramLibrary space P) (view : View space N P) : Prop where
  setName : ∀ {p p' key name}, lib.setName p key name = some p' → Leaves lib view (.symbol key) p p'
  createLabel : ∀ {p p' addr name}, lib.createLabel p addr name = some p' → Leaves lib view (.label addr name) p p'
  setVariableType : ∀ {p p' key type}, lib.setVariableType p key type = some p' → Leaves lib view (.symbol key) p p'
  setParameterName : ∀ {p p' addr i name}, lib.setParameterName p addr i name = some p' →
    Leaves lib view (.parameter addr i) p p'
  setParameterType : ∀ {p p' addr i type}, lib.setParameterType p addr i type = some p' →
    Leaves lib view (.parameter addr i) p p'
  addParameter : ∀ {p p' addr n name type}, lib.countParameters p addr = some n →
    lib.addParameter p addr name type = some p' → Leaves lib view (.parameter addr n) p p'
  clearCodeUnits : ∀ {p p' addr last}, lib.getDataAt p addr = some last → lib.clearCodeUnits p addr last = some p' →
    Leaves lib view (.data addr) p p'
  createData : ∀ {p p' addr type}, lib.createData p addr type = some p' → Leaves lib view (.data addr) p p'
  setReturnType : ∀ {p p' key type}, lib.setReturnType p key type = some p' → Leaves lib view (.signature key) p p'
  setCallingConvention : ∀ {p p' key name}, lib.setCallingConvention p key name = some p' →
    Leaves lib view (.signature key) p p'

/-- All comments, bookmarks and equates but those that are touched are kept. An equate may
get more references. -/
structure NotesKept (lib : NoteLibrary space N) (view : View space N P) (touched : Thing space → Prop) (n n' : N) :
    Prop where
  comment : ∀ addr type, ¬touched (.comment addr type) → view.commentAt n' addr type = view.commentAt n addr type
  bookmark : ∀ key, ¬touched (.bookmark key) → view.bookmarkAt n' key = view.bookmarkAt n key
  noBookmark : ∀ key, ¬touched (.noBookmark key) → view.bookmarkAt n key = none → view.bookmarkAt n' key = none
  equate : ∀ key record, lib.getEquate n key = some record → ¬touched (.equate record.name) →
    ∃ after, lib.getEquate n' key = some after ∧ after.name = record.name ∧ after.value = record.value ∧
      ∀ ref ∈ record.refs, ref ∈ after.refs

/-- Each call on comments, bookmarks and equates is about one of them. -/
structure NoteFrames (lib : NoteLibrary space N) (view : View space N P) : Prop where
  setComment : ∀ {n n' addr type text}, lib.setComment n addr type text = some n' →
    NotesKept lib view (· = .comment addr type) n n'
  getBookmarks : ∀ {n addr type keys}, lib.getBookmarks n addr type = some keys →
    ∀ key ∈ keys, key.1 = addr ∧ key.2.1 = type
  removeBookmark : ∀ {n n' key}, lib.removeBookmark n key = some n' → NotesKept lib view (· = .bookmark key) n n'
  setBookmark : ∀ {n n' addr type category comment}, lib.setBookmark n addr type category comment = some n' →
    NotesKept lib view (fun t => t = .bookmark (addr, type, category) ∨ t = .noBookmark (addr, type, category)) n n'
  removeEquate : ∀ {n n' name}, lib.removeEquate n name = some n' → NotesKept lib view (· = .equate name) n n'
  createEquate : ∀ {n n' name value key}, lib.createEquate n name value = some (key, n') →
    NotesKept lib view (fun _ => False) n n'
  addReference : ∀ {n n' key ref}, lib.addReference n key ref = some n' → NotesKept lib view (fun _ => False) n n'

/-- A type of one name is stored or removed and those of other names are left alone. -/
structure TypeFrames (store : TypeStore) : Prop where
  addDataType : ∀ {manager name content stored other}, store.addDataType manager name content = some stored →
    other ≠ name → stored.1.getDataType other = manager.getDataType other
  remove : ∀ {manager manager' name other}, store.remove manager name = some manager' →
    other ≠ name → manager'.getDataType other = manager.getDataType other

structure Frames (g : Ghidra space N P) (view : View space N P) : Prop where
  types : TypeFrames g.store
  notes : NoteFrames g.notes view
  listing : ListingFrames g.listing view

end Frames

/-! ## What an entry is about -/

section About
variable {space : AddressSpace} {N P : Type} (g : Ghidra space N P) (view : View space N P)
  (q : Program N P) (el : Json)

/-- The symbol of a rename, or the label of a new name. -/
def symbolSpot (space : AddressSpace) (el : Json) : Option (Spot space) :=
  match el.get? "key", el.get? "va" with
  | some member, _ => member.getAsLong.map .symbol
  | none, some _ => (addressOf space el "va").bind fun addr => (el.getStr "name" "").map (.label addr)
  | none, none => none

/-- The variable of a key, or the parameter of an ordinal. -/
def paramSpot (space : AddressSpace) (el : Json) : Option (Spot space) :=
  match el.get? "key", el.get? "func_va", el.get? "ordinal" with
  | some member, _, _ => member.getAsLong.map .symbol
  | none, some _, some ordinal =>
    (addressOf space el "func_va").bind fun addr => ordinal.getAsInt.map fun i => .parameter addr i.toInt.toNat
  | _, _, _ => none

def dataSpot (space : AddressSpace) (el : Json) : Option (Spot space) := (addressOf space el "addr").map .data

def signatureSpot (space : AddressSpace) (el : Json) : Option (Spot space) :=
  ((el.get? "key").bind Json.getAsLong).map .signature

/-- The address, type and category of a bookmark entry. -/
def bookmarkKey (space : AddressSpace) (el : Json) : Option (space.Address × String × String) := do
  return (← addressOf space el "addr", ← el.getStr "type" "Note", ← el.getStr "category" "")

/-- The name of the equate a key has. -/
def equateNamed (key : Nat) : Option String := (g.notes.getEquate q.notes key).map EquateRecord.name

/-- What an entry asks for is to be seen of these things. -/
def About : Category → Thing space → Prop
  | .dataTypes => fun t => ∃ name, el.getStr "name" "" = some name ∧ t = .type name
  | .symbols => fun t => ∃ spot ∈ symbolSpot space el, t = .spot spot
  | .comments => fun t => ∃ addr type, addressOf space el "va" = some addr ∧ el.get? type.field ≠ none ∧
    t = .comment addr type
  | .equateRenames => fun t => ∃ name, el.getStr "name" "" = some name ∧ t = .equate name
  | .equateRefAdds => fun t => ∃ key name, keyAsked el = some key ∧ equateNamed g q key = some name ∧ t = .equate name
  | .bookmarks => fun t => ∃ key ∈ bookmarkKey space el,
      t = if el.getStr "op" "add" = some "delete" then .noBookmark key else .bookmark key
  | .params => fun t => ∃ spot ∈ paramSpot space el, t = .spot spot
  | .dataItems => fun t => ∃ spot ∈ dataSpot space el, t = .spot spot
  | .funcSigs => fun t => ∃ spot ∈ signatureSpot space el, t = .spot spot

/-- The spots that are not apart from the one an entry is about. -/
def TouchesSpot (own : Option (Spot space)) (t : Thing space) : Prop :=
  ∃ mine ∈ own, ∃ spot, t = .spot spot ∧ ¬view.apart q.listing mine spot

/-- What the entry may change. A rename takes the equate of the old name away, and the
removal of a bookmark all of its type at the address. -/
def Touches : Category → Thing space → Prop
  | .dataTypes => About g q el .dataTypes
  | .symbols => TouchesSpot view q (symbolSpot space el)
  | .comments => About g q el .comments
  | .equateRenames => fun t => ∃ key name, keyAsked el = some key ∧ equateNamed g q key = some name ∧ t = .equate name
  | .equateRefAdds => fun _ => False
  | .bookmarks => fun t => ∃ key ∈ bookmarkKey space el,
      if el.getStr "op" "add" = some "delete" then ∃ category, t = .bookmark (key.1, key.2.1, category)
      else t = .bookmark key ∨ t = .noBookmark key
  | .params => TouchesSpot view q (paramSpot space el)
  | .dataItems => TouchesSpot view q (dataSpot space el)
  | .funcSigs => TouchesSpot view q (signatureSpot space el)

/-- The type names an entry spells. -/
def Spells : Category → String → Prop
  | .dataTypes => NamesType el
  | .params => fun text => typeAsked el "type_name" = some text
  | .dataItems => fun text => el.getStr "type_name" "" = some text
  | .funcSigs => fun text => typeAsked el "ret_type" = some text
  | _ => fun _ => False

/-- An entry that stands apart from one before it: it may change nothing that one is about,
and a type it removes is not behind a type name of it. -/
structure Apart (c : Category) (item : Category × Json) : Prop where
  things : ∀ t, About g q item.2 item.1 t → ¬Touches g view q el c t
  names : c = .dataTypes → el.getStr "op" "add" = some "delete" → ∀ name after, el.getStr "name" "" = some name →
    g.store.remove q.manager name = some after → ∀ text, Spells item.2 item.1 text →
    ∀ type, givenType g.types q.manager text = some type → givenType g.types after text = some type

/-- An entry that agrees with one before it: it asks for all that one asks for, and does not
end half done. -/
structure Agrees (start : Program N P) (c : Category) (item : Category × Json) : Prop where
  asks : ∀ p, present g view start c p el → present g view start item.1 p item.2
  whole : Whole g q el c

/-- An entry that is clear of those before it stands apart from each or agrees with it. -/
def Clear (start : Program N P) (past : List (Category × Json)) (c : Category) : Prop :=
  ∀ item ∈ past, Apart g view q el c item ∨ Agrees g view q el start c item

end About

variable {space : AddressSpace} {N P : Type} {g : Ghidra space N P} {view : View space N P}

/-! ## Symbols, variables, data and signatures -/

section Listing
variable {lib : ProgramLibrary space P}

theorem SameSpot.refl (p : P) (spot : Spot space) : SameSpot lib view p p spot := by
  cases spot with
  | symbol key => exact ⟨rfl, rfl⟩
  | label addr name => exact id
  | parameter addr i => exact ⟨rfl, rfl⟩
  | data addr => rfl
  | signature key => exact ⟨rfl, rfl, rfl⟩

theorem SameSpot.trans {first second third : P} {spot : Spot space} (one : SameSpot lib view first second spot)
    (two : SameSpot lib view second third spot) : SameSpot lib view first third spot := by
  cases spot with
  | symbol key => exact ⟨two.1.trans one.1, two.2.trans one.2⟩
  | label addr name => exact fun held => two (one held)
  | parameter addr i => exact ⟨two.1.trans one.1, two.2.trans one.2⟩
  | data addr => exact Eq.trans two one
  | signature key => exact ⟨two.1.trans one.1, two.2.1.trans one.2.1, two.2.2.trans one.2.2⟩

theorem Leaves.refl (own : Spot space) (p : P) : Leaves lib view own p p := fun spot apart => ⟨apart, .refl p spot⟩

theorem Leaves.trans {own : Spot space} {first second third : P} (one : Leaves lib view own first second)
    (two : Leaves lib view own second third) : Leaves lib view own first third := by
  intro spot apart
  obtain ⟨still, same⟩ := one spot apart
  obtain ⟨last, same'⟩ := two spot still
  exact ⟨last, same.trans same'⟩

/-- A call that may throw. -/
theorem Leaves.getD {own : Spot space} {p : P} {result : Option P}
    (done : ∀ p', result = some p' → Leaves lib view own p p') : Leaves lib view own p (result.getD p) := by
  cases result with
  | none => exact .refl own p
  | some p' => exact done p' rfl

/-- An entry changes nothing, or leaves what is apart from the spot it is about. -/
def Moves (lib : ProgramLibrary space P) (view : View space N P) (own : Option (Spot space)) (p p' : P) : Prop :=
  p' = p ∨ ∃ mine ∈ own, Leaves lib view mine p p'

section Moves
variable {own : Option (Spot space)} {mine : Spot space} {p p' : P} {applied : Counted P}

theorem Moves.refl : Moves lib view own p p := .inl rfl

theorem Moves.about (named : own = some mine) (left : Leaves lib view mine p p') : Moves lib view own p p' :=
  .inr ⟨mine, named, left⟩

theorem Moves.attempt {result : Option P} (named : own = some mine)
    (done : ∀ p', result = some p' → Leaves lib view mine applied.program p') :
    Moves lib view own applied.program (applied.attempt result).program := by
  cases result with
  | none => exact .refl
  | some p' => exact .about named (done p' rfl)

/-- A spot that the entry does not touch is the same after it. -/
theorem Moves.same {q : Program N P} (moved : Moves lib view own q.listing p') {spot : Spot space}
    (untouched : ¬TouchesSpot view q own (.spot spot)) : SameSpot lib view q.listing p' spot := by
  rcases moved with rfl | ⟨mine, named, left⟩
  · exact .refl _ spot
  · by_contra changed
    exact untouched ⟨mine, named, spot, rfl, fun apart => changed (left spot apart).2⟩

end Moves

variable {applied next : Counted P} {el : Json} {q : Program N P}

theorem symbol_moves (frames : ListingFrames g.listing view) (stepped : applySymbol g.listing applied el = some next) :
    Moves g.listing view (symbolSpot space el) applied.program next.program := by
  rcases applySymbol_cases stepped with rfl | ⟨name, named, renamed | labelled⟩
  · exact .refl
  · obtain ⟨member, key, keyed, read, rfl⟩ := renamed
    have spot : symbolSpot space el = some (.symbol key) := by
      rw [symbolSpot, keyed]
      exact congrArg (Option.map Spot.symbol) read
    exact .attempt spot fun _ set => frames.setName set
  · obtain ⟨member, addr, keyless, vaRead, inside, rfl⟩ := labelled
    have spot : symbolSpot space el = some (.label addr name) := by
      rw [symbolSpot, keyless, vaRead]
      dsimp only
      rw [inside, Option.bind_some, named, Option.map_some]
    exact .attempt spot fun _ made => frames.createLabel made

theorem variable_moves (frames : ListingFrames g.listing view) {key : Int64} {name : String}
    (spot : paramSpot space el = some (.symbol key)) :
    Moves g.listing view (paramSpot space el) applied.program
      (renameVariable g.listing g.types q.manager key name el applied).program := by
  rw [renameVariable]
  split
  · exact .refl
  cases set : g.listing.setName applied.program key name with
  | none => exact .refl
  | some p =>
    dsimp only
    split
    · exact .about spot (frames.setName set)
    · rename_i found _
      have typed : Leaves g.listing view (.symbol key) p
          ((found.bind fun type => g.listing.setVariableType p key type).getD p) := by
        refine .getD fun p' done => ?_
        obtain ⟨type, -, called⟩ := Option.bind_eq_some_iff.mp done
        exact frames.setVariableType called
      exact .about spot ((frames.setName set).trans typed)

/-- A parameter that is there, or the next one: the condition rules others out. -/
theorem parameter_moves (frames : ListingFrames g.listing view) {name : String} {funcVa ordinal : Json} {i : Int32}
    {addr : space.Address} (named : el.getStr "name" "" = some name) (filled : name ≠ "")
    (keyless : el.get? "key" = none) (argument : isLocalAsked el = some false)
    (function : el.get? "func_va" = some funcVa) (placed : el.get? "ordinal" = some ordinal)
    (read : ordinal.getAsInt = some i) (inside : addressOf space el "func_va" = some addr)
    (met : paramMeets g { q with listing := applied.program } el) :
    Moves g.listing view (paramSpot space el) applied.program
      (parameterAt g.listing g.types q.manager i name el addr applied).program := by
  have spot : paramSpot space el = some (.parameter addr i.toInt.toNat) := by
    rw [paramSpot, keyless, function, placed]
    dsimp only
    rw [inside, Option.bind_some, read, Option.map_some]
  rw [parameterAt]
  split
  · exact .refl
  rename_i known
  split
  · rename_i type n resolved counted
    split
    · cases set : g.listing.setParameterName applied.program addr i.toInt.toNat name with
      | none => exact .refl
      | some p =>
        have typed : Leaves g.listing view (.parameter addr i.toInt.toNat) p
            ((type.bind fun type => g.listing.setParameterType p addr i.toInt.toNat type).getD p) := by
          refine .getD fun p' done => ?_
          obtain ⟨given, -, called⟩ := Option.bind_eq_some_iff.mp done
          exact frames.setParameterType called
        exact .about spot ((frames.setParameterName set).trans typed)
    · rename_i beyond
      have conditions := met name named filled
      rw [keyless, function, placed] at conditions
      have rest := conditions argument addr i n type inside read (Bool.not_eq_false _ ▸ known) counted resolved
      rw [if_neg beyond] at rest
      have index : i.toInt.toNat = n := by omega
      rw [index] at spot
      exact .about spot (.getD fun p' done => frames.addParameter counted done)
  · exact .refl

theorem param_moves (frames : ListingFrames g.listing view)
    (met : paramMeets g { q with listing := applied.program } el)
    (stepped : applyParameter g.listing g.types q.manager applied el = some next) :
    Moves g.listing view (paramSpot space el) applied.program next.program := by
  rcases applyParameter_cases stepped with rfl | ⟨name, named, filled, keyed | placed⟩
  · exact .refl
  · obtain ⟨member, key, held, read, rfl⟩ := keyed
    have spot : paramSpot space el = some (.symbol key) := by
      rw [paramSpot, held]
      exact congrArg (Option.map Spot.symbol) read
    exact variable_moves frames spot
  · obtain ⟨funcVa, ordinal, addr, i, keyless, function, held, argument, inside, read, rfl⟩ := placed
    exact parameter_moves frames named filled keyless argument function held read inside met

theorem clearAt_leaves (frames : ListingFrames g.listing view) {addr : space.Address} {p p' : P}
    (cleared : clearAt g.listing addr p = some p') : Leaves g.listing view (.data addr) p p' := by
  rw [clearAt] at cleared
  split at cleared
  · cases cleared
    exact .refl _ p
  · rename_i last found
    exact frames.clearCodeUnits found cleared

theorem dataItem_moves (frames : ListingFrames g.listing view)
    (stepped : applyDataItem g.listing g.types q.manager applied el = some next) :
    Moves g.listing view (dataSpot space el) applied.program next.program := by
  rcases applyDataItem_cases stepped with rfl | ⟨op, addr, operation, there, positive, rfl⟩
  · exact .refl
  have spot : dataSpot space el = some (.data addr) := by rw [dataSpot, there, Option.map_some]
  rw [dataItemAt]
  split
  · exact .attempt spot fun _ cleared => clearAt_leaves frames cleared
  split
  · split
    · exact .refl
    rename_i cleared clears
    have left := clearAt_leaves frames clears
    -- what was cleared stays cleared if the new data cannot be made
    cases made : g.listing.createData cleared addr _ with
    | none => exact .about spot left
    | some p => exact .about spot (left.trans (frames.createData made))
  · exact .refl

theorem signature_moves (frames : ListingFrames g.listing view)
    (stepped : applyFuncSig g.listing g.types q.manager applied el = some next) :
    Moves g.listing view (signatureSpot space el) applied.program next.program := by
  rcases applyFuncSig_cases stepped with rfl | ⟨key, type, cc, whole, -, -, -, rfl⟩
  · exact .refl
  have spot : signatureSpot space el = some (.signature key) := by rw [signatureSpot, whole, Option.map_some]
  have typed : Leaves g.listing view (.signature key) applied.program
      ((type.bind fun given => g.listing.setReturnType applied.program key given).getD applied.program) := by
    refine .getD fun p' done => ?_
    obtain ⟨given, -, called⟩ := Option.bind_eq_some_iff.mp done
    exact frames.setReturnType called
  have convention (p : P) : Leaves g.listing view (.signature key) p ((conventionCall g.listing p key cc).getD p) := by
    refine .getD fun p' done => ?_
    rw [conventionCall] at done
    split at done
    · cases done
    obtain ⟨name, -, called⟩ := Option.bind_eq_some_iff.mp done
    exact frames.setCallingConvention called
  exact .about spot (typed.trans (convention _))

end Listing

/-! ## Comments, bookmarks and equates -/

section Notes
variable {lib : NoteLibrary space N} {touched wider : Thing space → Prop} {n n' : N}

theorem NotesKept.refl : NotesKept lib view touched n n where
  comment _ _ _ := rfl
  bookmark _ _ := rfl
  noBookmark _ _ held := held
  equate _ record held _ := ⟨record, held, rfl, rfl, fun _ member => member⟩

theorem NotesKept.trans {last : N} (one : NotesKept lib view touched n n') (two : NotesKept lib view touched n' last) :
    NotesKept lib view touched n last where
  comment addr type free := (two.comment addr type free).trans (one.comment addr type free)
  bookmark key free := (two.bookmark key free).trans (one.bookmark key free)
  noBookmark key free held := two.noBookmark key free (one.noBookmark key free held)
  equate key record held free := by
    obtain ⟨middle, there, name, value, kept⟩ := one.equate key record held free
    obtain ⟨after, at', name', value', kept'⟩ := two.equate key middle there (by rwa [name])
    exact ⟨after, at', name'.trans name, value'.trans value, fun ref member => kept' ref (kept ref member)⟩

theorem NotesKept.mono (kept : NotesKept lib view touched n n') (grows : ∀ t, touched t → wider t) :
    NotesKept lib view wider n n' where
  comment addr type free := kept.comment addr type (mt (grows _) free)
  bookmark key free := kept.bookmark key (mt (grows _) free)
  noBookmark key free := kept.noBookmark key (mt (grows _) free)
  equate key record held free := kept.equate key record held (mt (grows _) free)

variable {applied next : Counted N} {el : Json} {q : Program N P}

theorem setColumns_keeps (frames : NoteFrames g.notes view) (addr : space.Address)
    (columns : List CommentType) (n : N) :
    NotesKept g.notes view (fun t => ∃ type : CommentType, el.get? type.field ≠ none ∧ t = .comment addr type) n
      (g.notes.setColumns addr el columns n).1 := by
  induction columns generalizing n with
  | nil => exact .refl
  | cons type rest ih =>
    rw [NoteLibrary.setColumns]
    cases given : el.get? type.field with
    | none => exact ih n
    | some member =>
      dsimp only
      cases called : member.getAsString.bind fun text => g.notes.setComment n addr type (nullIfEmpty text) with
      | none => exact .refl
      | some middle =>
        obtain ⟨text, -, wrote⟩ := Option.bind_eq_some_iff.mp called
        have own : NotesKept g.notes view
            (fun t => ∃ type : CommentType, el.get? type.field ≠ none ∧ t = .comment addr type) n middle := by
          refine (frames.setComment wrote).mono fun t same => ⟨type, ?_, same⟩
          rw [given]
          exact Option.some_ne_none _
        exact own.trans (ih middle)

theorem comment_keeps (frames : NoteFrames g.notes view)
    (stepped : g.notes.applyComment applied el = some next) :
    NotesKept g.notes view (Touches g view q el .comments) applied.program next.program := by
  rcases applyComment_cases stepped with rfl | ⟨addr, inside, rfl⟩
  · exact .refl
  · refine (setColumns_keeps frames addr _ applied.program).mono fun t own => ?_
    obtain ⟨type, given, rfl⟩ := own
    exact ⟨addr, type, inside, given, rfl⟩

theorem removeBookmarks_keeps (frames : NoteFrames g.notes view) {addr : space.Address} {type : String}
    {keys : List (space.Address × String × String)} (own : ∀ key ∈ keys, key.1 = addr ∧ key.2.1 = type) (n : N) :
    NotesKept g.notes view (fun t => ∃ category, t = .bookmark (addr, type, category)) n
      (g.notes.removeBookmarks keys n).1 := by
  induction keys generalizing n with
  | nil => exact .refl
  | cons key rest ih =>
    rw [NoteLibrary.removeBookmarks]
    cases called : g.notes.removeBookmark n key with
    | none => exact .refl
    | some middle =>
      obtain ⟨rfl, rfl⟩ := own key (List.mem_cons_self ..)
      have first := (frames.removeBookmark called).mono fun t same =>
        (⟨key.2.2, same⟩ : ∃ category, t = .bookmark (key.1, key.2.1, category))
      exact first.trans (ih (fun other member => own other (List.mem_cons_of_mem _ member)) middle)

theorem bookmark_keeps (frames : NoteFrames g.notes view)
    (stepped : g.notes.applyBookmark applied el = some next) :
    NotesKept g.notes view (Touches g view q el .bookmarks) applied.program next.program := by
  rcases applyBookmark_cases stepped with
    rfl | ⟨op, type, category, comment, addr, operation, typed, categorized, -, there, -, rfl⟩
  · exact .refl
  have spelled : bookmarkKey space el = some (addr, type, category) := by
    rw [bookmarkKey, there, typed, categorized]
    rfl
  change NotesKept _ _ _ _ (g.notes.changeBookmark applied.program addr op type category comment).1
  rw [NoteLibrary.changeBookmark]
  split
  · rename_i deletes
    subst deletes
    split
    · exact .refl
    rename_i keys listed
    refine (removeBookmarks_keeps frames (frames.getBookmarks listed) applied.program).mono fun t own => ?_
    refine ⟨_, spelled, ?_⟩
    rw [if_pos operation]
    exact own
  · rename_i keeps
    split
    · exact .refl
    rename_i after set
    refine (frames.setBookmark set).mono fun t same => ⟨_, spelled, ?_⟩
    rwa [if_neg fun deletes => keeps (Option.some.inj (operation.symm.trans deletes))]

theorem attach_keeps (frames : NoteFrames g.notes view) (key : Nat) (refs : List (space.Address × Int32)) (n : N) :
    NotesKept g.notes view (fun _ => False) n
      (refs.foldl (fun current ref => (g.notes.addReference current key ref).getD current) n) := by
  induction refs generalizing n with
  | nil => exact .refl
  | cons ref rest ih =>
    rw [List.foldl_cons]
    refine .trans ?_ (ih _)
    cases added : g.notes.addReference n key ref with
    | none => exact .refl
    | some after => exact frames.addReference added

theorem equateRename_keeps (frames : NoteFrames g.notes view) {equates : Table Nat Nat}
    (own : ∀ key found, equates.lookup key = some found → found = key)
    (stepped : g.notes.applyEquateRename equates applied el = some next) :
    NotesKept g.notes view (Touches g view { q with notes := applied.program } el .equateRenames)
      applied.program next.program := by
  obtain ⟨id, name, idRead, -, rfl⟩ := applyEquateRename_cases stepped
  change NotesKept _ _ _ _ (g.notes.renameEquate equates applied.program id name).1
  rw [NoteLibrary.renameEquate]
  split
  · exact .refl
  split
  · exact .refl
  rename_i found known
  obtain ⟨key, asked, listed⟩ := Option.bind_eq_some_iff.mp known
  obtain rfl : found = key := own key found listed
  split
  · exact .refl
  rename_i old held
  split
  · exact .refl
  rename_i removed taken
  have gone : NotesKept g.notes view (Touches g view { q with notes := applied.program } el .equateRenames)
      applied.program removed := by
    refine (frames.removeEquate taken).mono fun t same => ⟨found, old.name, idRead found asked, ?_, same⟩
    rw [equateNamed, held, Option.map_some]
  split
  · exact gone
  · rename_i newKey created made
    have attached := (frames.createEquate made).trans (attach_keeps frames newKey old.refs.list created)
    exact gone.trans (attached.mono fun _ none => none.elim)

theorem equateRef_keeps (frames : NoteFrames g.notes view) {equates : Table Nat Nat}
    (stepped : g.notes.applyEquateRefAdd equates applied el = some next) :
    NotesKept g.notes view (Touches g view q el .equateRefAdds) applied.program next.program := by
  obtain ⟨id, va, opIndex, -, -, -, rfl⟩ := applyEquateRefAdd_cases stepped
  cases added : g.notes.addEquateRef equates applied.program id va opIndex with
  | none => exact .refl
  | some after =>
    obtain ⟨found, -, placed⟩ := Option.bind_eq_some_iff.mp added
    obtain ⟨addr, -, called⟩ := Option.bind_eq_some_iff.mp placed
    exact frames.addReference called

end Notes

/-! ## What earlier entries keep -/

section Keeps
variable {start q q' : Program N P} {el : Json}

/-- What can be seen of a thing is the same in both programs. -/
def Same (g : Ghidra space N P) (view : View space N P) (q q' : Program N P) : Thing space → Prop
  | .type name => q'.manager.getDataType name = q.manager.getDataType name
  | .comment addr type => view.commentAt q'.notes addr type = view.commentAt q.notes addr type
  | .equate name => ∀ key record, g.notes.getEquate q.notes key = some record → record.name = name →
    ∃ after, g.notes.getEquate q'.notes key = some after ∧ after.name = record.name ∧ after.value = record.value ∧
      ∀ ref ∈ record.refs, ref ∈ after.refs
  | .bookmark key => view.bookmarkAt q'.notes key = view.bookmarkAt q.notes key
  | .noBookmark key => view.bookmarkAt q.notes key = none → view.bookmarkAt q'.notes key = none
  | .spot spot => SameSpot g.listing view q.listing q'.listing spot

/-- What a type name spells in the one program it spells in the other. -/
def SpellsSame (g : Ghidra space N P) (q q' : Program N P) (text : String) : Prop :=
  ∀ type, givenType g.types q.manager text = some type → givenType g.types q'.manager text = some type

theorem isAsked_kept {key : String} {observed : Option DataTypeRef}
    (names : ∀ text, typeAsked el key = some text → SpellsSame g q q' text)
    (asked : IsAsked g.types q.manager el key observed) : IsAsked g.types q'.manager el key observed := by
  intro text read
  obtain ⟨given, spelled, same⟩ := asked text read
  exact ⟨given, names text read given spelled, same⟩

section Present
variable {c : Category}

theorem type_kept (same : ∀ t, About g q el .dataTypes t → Same g view q q' t)
    (names : ∀ text, NamesType el text → SpellsSame g q q' text) (held : typePresent g start q el) :
    typePresent g start q' el := by
  obtain ⟨op, kind, name, operation, kindRead, named, there⟩ := held
  have record : q'.manager.getDataType name = q.manager.getDataType name := same (.type name) ⟨name, named, rfl⟩
  refine ⟨op, kind, name, operation, kindRead, named, ?_⟩
  rw [record]
  split
  · rename_i deletes
    rwa [if_pos deletes] at there
  · rename_i keeps
    rw [if_neg keeps] at there
    obtain ⟨found, listed, shown⟩ := there
    exact ⟨found, listed, AppliedTypes.contentShown_of_names names shown⟩

theorem symbol_kept (same : ∀ t, About g q el .symbols t → Same g view q q' t)
    (held : symbolPresent view q el) : symbolPresent view q' el := by
  obtain ⟨name, named, there⟩ := held
  refine ⟨name, named, ?_⟩
  cases keyed : el.get? "key" with
  | some member =>
    rw [keyed] at there
    obtain ⟨key, read, shown⟩ := there
    have spot : symbolSpot space el = some (.symbol key) := by
      rw [symbolSpot, keyed]
      exact congrArg (Option.map Spot.symbol) read
    exact ⟨key, read, (same (.spot (.symbol key)) ⟨_, spot, rfl⟩).1.trans shown⟩
  | none =>
    cases placed : el.get? "va" with
    | none =>
      rw [keyed, placed] at there
      exact there.elim
    | some member =>
      rw [keyed, placed] at there
      obtain ⟨addr, inside, shown⟩ := there
      have spot : symbolSpot space el = some (.label addr name) := by
        rw [symbolSpot, keyed, placed]
        dsimp only
        rw [inside, Option.bind_some, named, Option.map_some]
      exact ⟨addr, inside, same (.spot (.label addr name)) ⟨_, spot, rfl⟩ shown⟩

theorem comment_kept (same : ∀ t, About g q el .comments t → Same g view q q' t) (held : commentPresent view q el) :
    commentPresent view q' el := by
  obtain ⟨addr, inside, each⟩ := held
  refine ⟨addr, inside, fun type member given => ?_⟩
  obtain ⟨text, read, shown⟩ := each type member given
  have kept : view.commentAt q'.notes addr type = view.commentAt q.notes addr type :=
    same (.comment addr type) ⟨addr, type, inside, by rw [given]; exact Option.some_ne_none _, rfl⟩
  exact ⟨text, read, kept.trans shown⟩

theorem equateRename_kept (same : ∀ t, About g q el .equateRenames t → Same g view q q' t)
    (held : equateRenamePresent g start q el) : equateRenamePresent g start q' el := by
  obtain ⟨key, name, old, newKey, record, asked, named, before, there, renamed, value, refs⟩ := held
  obtain ⟨after, still, name', value', kept⟩ := same (.equate name) ⟨name, named, rfl⟩ newKey record there renamed
  exact ⟨key, name, old, newKey, after, asked, named, before, still, name'.trans renamed, value'.trans value,
    fun ref member => kept ref (refs ref member)⟩

theorem equateRef_kept (same : ∀ t, About g q el .equateRefAdds t → Same g view q q' t)
    (held : equateRefPresent g q el) : equateRefPresent g q' el := by
  obtain ⟨key, addr, opIndex, record, asked, inside, index, there, listed⟩ := held
  have named : equateNamed g q key = some record.name := by rw [equateNamed, there, Option.map_some]
  obtain ⟨after, still, -, -, kept⟩ :=
    same (.equate record.name) ⟨key, record.name, asked, named, rfl⟩ key record there rfl
  exact ⟨key, addr, opIndex, after, asked, inside, index, still, kept _ listed⟩

theorem bookmark_kept (same : ∀ t, About g q el .bookmarks t → Same g view q q' t)
    (held : bookmarkPresent view start q el) : bookmarkPresent view start q' el := by
  obtain ⟨op, type, category, comment, addr, operation, typed, categorized, commented, inside, there⟩ := held
  have spelled : bookmarkKey space el = some (addr, type, category) := by
    rw [bookmarkKey, inside, typed, categorized]
    rfl
  refine ⟨op, type, category, comment, addr, operation, typed, categorized, commented, inside, ?_⟩
  by_cases deletes : op = "delete"
  · subst deletes
    rw [if_pos rfl] at there ⊢
    exact ⟨there.1, same (.noBookmark (addr, type, category)) ⟨_, spelled, (if_pos operation).symm⟩ there.2⟩
  · have adds : el.getStr "op" "add" ≠ some "delete" := fun asks =>
      deletes (Option.some.inj (operation.symm.trans asks))
    have kept : view.bookmarkAt q'.notes (addr, type, category) = view.bookmarkAt q.notes (addr, type, category) :=
      same (.bookmark (addr, type, category)) ⟨_, spelled, (if_neg adds).symm⟩
    rw [if_neg deletes] at there ⊢
    rw [kept]
    exact there

theorem param_kept (same : ∀ t, About g q el .params t → Same g view q q' t)
    (names : ∀ text, typeAsked el "type_name" = some text → SpellsSame g q q' text)
    (held : paramPresent g view q el) : paramPresent g view q' el := by
  obtain ⟨name, named, there⟩ := held
  refine ⟨name, named, ?_⟩
  cases keyed : el.get? "key" with
  | some member =>
    rw [keyed] at there
    obtain ⟨key, read, shown, asked⟩ := there
    have spot : paramSpot space el = some (.symbol key) := by
      rw [paramSpot, keyed]
      exact congrArg (Option.map Spot.symbol) read
    obtain ⟨sameName, sameType⟩ := same (.spot (.symbol key)) ⟨_, spot, rfl⟩
    refine ⟨key, read, sameName.trans shown, ?_⟩
    rw [sameType]
    exact isAsked_kept names asked
  | none =>
    cases function : el.get? "func_va" with
    | none =>
      rw [keyed, function] at there
      exact there.elim
    | some funcVa =>
      cases placed : el.get? "ordinal" with
      | none =>
        rw [keyed, function, placed] at there
        exact there.elim
      | some ordinal =>
        rw [keyed, function, placed] at there
        obtain ⟨addr, i, inside, read, nonneg, shown, asked⟩ := there
        have spot : paramSpot space el = some (.parameter addr i.toInt.toNat) := by
          rw [paramSpot, keyed, function, placed]
          dsimp only
          rw [inside, Option.bind_some, read, Option.map_some]
        obtain ⟨sameName, sameType⟩ := same (.spot (.parameter addr i.toInt.toNat)) ⟨_, spot, rfl⟩
        refine ⟨addr, i, inside, read, nonneg, sameName.trans shown, ?_⟩
        rw [sameType]
        exact isAsked_kept names asked

theorem dataItem_kept (same : ∀ t, About g q el .dataItems t → Same g view q q' t)
    (names : ∀ text, el.getStr "type_name" "" = some text → SpellsSame g q q' text)
    (held : dataItemPresent g view start q el) : dataItemPresent g view start q' el := by
  obtain ⟨op, addr, operation, inside, there⟩ := held
  have spot : dataSpot space el = some (.data addr) := by rw [dataSpot, inside, Option.map_some]
  have kept : view.dataAt q'.listing addr = view.dataAt q.listing addr := same (.spot (.data addr)) ⟨_, spot, rfl⟩
  refine ⟨op, addr, operation, inside, ?_⟩
  rw [kept]
  split
  · rename_i deletes
    rwa [if_pos deletes] at there
  · rename_i keeps
    rw [if_neg keeps] at there
    obtain ⟨text, given, named, spelled, shown⟩ := there
    exact ⟨text, given, named, names text named given spelled, shown⟩

theorem signature_kept (same : ∀ t, About g q el .funcSigs t → Same g view q q' t)
    (names : ∀ text, typeAsked el "ret_type" = some text → SpellsSame g q q' text)
    (held : funcSigPresent g view q el) : funcSigPresent g view q' el := by
  obtain ⟨key, cc, read, asked, given, set⟩ := held
  have spot : signatureSpot space el = some (.signature key) := by rw [signatureSpot, read, Option.map_some]
  obtain ⟨typed, convention, known⟩ := same (.spot (.signature key)) ⟨_, spot, rfl⟩
  refine ⟨key, cc, read, ?_, given, ?_⟩
  · rw [typed]
    exact isAsked_kept names asked
  · rwa [known, convention]

/-- An entry keeps what it asked for while the things it is about are the same and its type
names spell what they spelled. -/
theorem present_kept (same : ∀ t, About g q el c t → Same g view q q' t)
    (names : ∀ text, Spells el c text → SpellsSame g q q' text) (held : present g view start c q el) :
    present g view start c q' el := by
  cases c with
  | dataTypes => exact type_kept same names held
  | symbols => exact symbol_kept same held
  | comments => exact comment_kept same held
  | equateRenames => exact equateRename_kept same held
  | equateRefAdds => exact equateRef_kept same held
  | bookmarks => exact bookmark_kept same held
  | params => exact param_kept same names held
  | dataItems => exact dataItem_kept same names held
  | funcSigs => exact signature_kept same names held

end Present

/-! ### One step -/

variable {past : List (Category × Json)} {c : Category}

/-- A step changes only what the entry touches, and an entry that is not half done has all
it asks for, or has changed nothing. -/
theorem keeps_of_clear (clear : Clear g view q el start past c)
    (same : ∀ t, ¬Touches g view q el c t → Same g view q q' t)
    (names : ∀ item ∈ past, Apart g view q el c item → ∀ text, Spells item.2 item.1 text → SpellsSame g q q' text)
    (done : Whole g q el c → q' = q ∨ present g view start c q' el) :
    Keeps (present g view start) past q q' := by
  intro item member held
  rcases clear item member with apart | agrees
  · exact present_kept (fun t about => same t (apart.things t about)) (names item member apart) held
  · rcases done agrees.whole with rfl | all
    · exact held
    · exact agrees.asks q' all

theorem same_of_moves {own : Option (Spot space)} {p' : P} (moved : Moves g.listing view own q.listing p')
    (t : Thing space)
    (untouched : ¬TouchesSpot view q own t) : Same g view q { q with listing := p' } t := by
  cases t with
  | type name => rfl
  | comment addr type => rfl
  | equate name => exact fun key record held _ => ⟨record, held, rfl, rfl, fun _ member => member⟩
  | bookmark key => rfl
  | noBookmark key => exact id
  | spot spot => exact moved.same untouched

theorem same_of_notes {touched : Thing space → Prop} {n' : N} (kept : NotesKept g.notes view touched q.notes n')
    (t : Thing space) (untouched : ¬touched t) : Same g view q { q with notes := n' } t := by
  cases t with
  | type name => rfl
  | comment addr type => exact kept.comment addr type untouched
  | equate name =>
    intro key record held named
    subst named
    exact kept.equate key record held untouched
  | bookmark key => exact kept.bookmark key untouched
  | noBookmark key => exact kept.noBookmark key untouched
  | spot spot => exact .refl _ spot

/-- Types of other names are the same, and a type that is removed is none that an earlier
entry spells. -/
theorem types_keep (laws : TypeLaws g.types g.store) (frames : TypeFrames g.store) {applied next : TypesApplied}
    (met : typeMeets g start { q with manager := applied.manager } el)
    (clear : Clear g view { q with manager := applied.manager } el start past .dataTypes)
    (stepped : g.store.applyTypeChange g.types applied el = some next) :
    Keeps (present g view start) past { q with manager := applied.manager } { q with manager := next.manager } := by
  have done : next = applied ∨ typePresent g start { q with manager := next.manager } el :=
    (AppliedTypes.type_counts laws met stepped).imp_right And.right
  rcases applyTypeChange_cases stepped with rfl | ⟨op, kind, name, operation, kindRead, named, filled, changed, -⟩
  · exact .refl
  have condition := met op kind name operation kindRead named filled
  have outcome : Whole g { q with manager := applied.manager } el .dataTypes →
      ({ q with manager := next.manager } : Program N P) = { q with manager := applied.manager } ∨
        present g view start .dataTypes { q with manager := next.manager } el :=
    fun _ => done.imp_left fun same => by rw [same]
  have others (left : ∀ other, other ≠ name → next.manager.getDataType other = applied.manager.getDataType other)
      (t : Thing space) (untouched : ¬Touches g view { q with manager := applied.manager } el .dataTypes t) :
      Same g view { q with manager := applied.manager } { q with manager := next.manager } t := by
    cases t with
    | type other =>
      refine left other fun same => untouched ⟨name, named, ?_⟩
      rw [same]
    | comment addr type => rfl
    | equate _ => exact fun key record held _ => ⟨record, held, rfl, rfl, fun _ member => member⟩
    | bookmark key => rfl
    | noBookmark key => exact id
    | spot spot => exact .refl _ spot
  rcases changed with ⟨rfl, removed⟩ | ⟨keeps, content, stored, made, called, final⟩
  · rw [TypeStore.removeType] at removed
    split at removed
    · rw [← Option.some.inj removed]
      exact .refl
    · refine keeps_of_clear clear (others fun other apart => frames.remove removed apart) ?_ outcome
      exact fun item _ apart => apart.names rfl operation name next.manager named removed
  · rw [if_neg keeps] at condition
    have kept := (condition content stored made called).2
    rw [← final] at kept
    refine keeps_of_clear clear (others fun other apart => ?_) (fun _ _ _ text _ => kept text) outcome
    rw [final]
    exact frames.addDataType called apart

end Keeps
end GhidraBridge.AppliedFrames
