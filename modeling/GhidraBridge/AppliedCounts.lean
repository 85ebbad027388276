import GhidraBridge.AppliedFrames
import GhidraBridge.BookmarkWriteback
import GhidraBridge.VariableRenames

/-! The numbers a check-in reports. A loop counts an entry at its end, and some failures on
the way there are swallowed, so an entry can be counted of which only a part was done. In a
run where no entry meets such a failure, and each is about something else than those before
it, no number is more than the entries whose whole effect is in the program. -/
namespace GhidraBridge.AppliedCounts
open Lib Lib.Fold Lib.Tally AddressSpace ProgramApplier AppliedEffects AppliedSteps AppliedFrames

variable {space : AddressSpace} {N P : Type} {g : Ghidra space N P} {view : View space N P}

/-- An entry is counted only if the program then shows what it asks for; one that is not has
changed nothing, unless it ends half done. -/
def Counts (applied next : Counted P) (whole : Prop) (shown : P → Prop) : Prop :=
  (next.count = applied.count ∧ (whole → next.program = applied.program)) ∨
    (next.count = applied.count + 1 ∧ shown next.program)

section Counts
variable {applied : Counted P} {whole : Prop} {shown : P → Prop}

theorem Counts.refl : Counts applied applied whole shown := .inl ⟨rfl, fun _ => rfl⟩

theorem Counts.attempt {result : Option P} (done : ∀ p, result = some p → shown p) :
    Counts applied (applied.attempt result) whole shown := by
  cases result with
  | none => exact .refl
  | some p => exact .inr ⟨rfl, done p rfl⟩

theorem Counts.proceed {result : P × Bool} (undone : result.2 = false → whole → result.1 = applied.program)
    (done : result.2 = true → shown result.1) : Counts applied (applied.proceed result) whole shown := by
  obtain ⟨p, reached⟩ := result
  cases reached with
  | false => exact .inl ⟨rfl, undone rfl⟩
  | true => exact .inr ⟨rfl, done rfl⟩

end Counts

/-! ## Symbols, variables, data and signatures -/

section Listing
variable {applied next : Counted P} {el : Json} {q : Program N P}

theorem symbol_counts (laws : ListingLaws g.listing view) (stepped : applySymbol g.listing applied el = some next) :
    Counts applied next True fun p => symbolPresent view { q with listing := p } el := by
  rcases applySymbol_cases stepped with rfl | ⟨name, named, renamed | labelled⟩
  · exact .refl
  · obtain ⟨member, key, keyed, read, rfl⟩ := renamed
    refine .attempt fun p set => ⟨name, named, ?_⟩
    rw [keyed]
    exact ⟨key, read, laws.setName set⟩
  · obtain ⟨member, addr, keyless, vaRead, inside, rfl⟩ := labelled
    refine .attempt fun p made => ⟨name, named, ?_⟩
    rw [keyless, vaRead]
    exact ⟨addr, inside, laws.createLabel made⟩

/-- A type that is asked for and could be set is there. -/
theorem isAsked_of_set {types : TypeLibrary} {manager : DataTypeManager} {key : String}
    {type observed : Option DataTypeRef}
    (asked : IsAsked types manager el key type) (set : ∀ given ∈ type, observed = some given) :
    IsAsked types manager el key observed := by
  intro text read
  obtain ⟨given, spelled, rfl⟩ := asked text read
  exact ⟨given, spelled, set given rfl⟩

/-- A type set after a name, where the call is there and leaves the name alone. -/
theorem named_and_typed {types : TypeLibrary} {manager : DataTypeManager} {key name : String}
    {type : Option DataTypeRef}
    {p : P} {setType : DataTypeRef → Option P} {nameOf : P → Option String} {typeOf : P → Option DataTypeRef}
    (set : ∀ given p', setType given = some p' → typeOf p' = some given ∧ nameOf p' = nameOf p)
    (named : nameOf p = some name) (asked : IsAsked types manager el key type)
    (succeeds : ∀ given ∈ type, (setType given).isSome) :
    nameOf ((type.bind setType).getD p) = some name ∧
      IsAsked types manager el key (typeOf ((type.bind setType).getD p)) := by
  cases type with
  | none => exact ⟨named, isAsked_of_set asked fun _ member => absurd member (Option.not_mem_none _)⟩
  | some given =>
    obtain ⟨p', done⟩ := Option.isSome_iff_exists.mp (succeeds given rfl)
    obtain ⟨typed, same⟩ := set given p' done
    rw [Option.bind_some, done, Option.getD_some]
    refine ⟨same.trans named, isAsked_of_set asked fun other member => ?_⟩
    cases member
    exact typed

theorem variable_counts (laws : ListingLaws g.listing view) {key : Int64} {name : String} {member : Json}
    (named : el.getStr "name" "" = some name) (filled : name ≠ "") (keyed : el.get? "key" = some member)
    (read : member.getAsLong = some key) (met : paramMeets g { q with listing := applied.program } el) :
    Counts applied (renameVariable g.listing g.types q.manager key name el applied)
      (Whole g { q with listing := applied.program } el .params) fun p =>
      paramPresent g view { q with listing := p } el := by
  rw [renameVariable]
  split
  · exact .refl
  rename_i known
  cases set : g.listing.setName applied.program key name with
  | none => exact .refl
  | some p =>
    have conditions := met name named filled
    rw [keyed] at conditions
    obtain ⟨isVariable, typed⟩ := conditions key p read (Bool.not_eq_false _ ▸ known) set
    have outcome : ∀ type, (if (el.get? "type_name").isSome && g.listing.isVariable p key then
          resolveOptional g.types q.manager el "type_name" else some none) = some type →
        IsAsked g.types q.manager el "type_name" type ∧
          ∀ given ∈ type, (g.listing.setVariableType p key given).isSome := by
      intro type found
      split at found
      · exact typed type found
      · rename_i untyped
        cases found
        refine ⟨fun text asks => absurd ?_ untyped, fun _ given => absurd given (Option.not_mem_none _)⟩
        have given : (el.get? "type_name").isSome := by
          rw [typeAsked] at asks
          cases held : el.get? "type_name" with
          | none =>
            rw [held] at asks
            cases asks
          | some member => rfl
        have settable :=
          isVariable (by rw [show typeAsked el "type_name" = some text from asks]; exact Option.some_ne_none _)
        rw [given, settable]
        rfl
    dsimp only
    cases found : (if (el.get? "type_name").isSome && g.listing.isVariable p key then
        resolveOptional g.types q.manager el "type_name" else some none) with
    | none =>
      -- the name is set, but the type name is none
      refine .inl ⟨rfl, fun whole => absurd ?_ whole⟩
      split at found
      · exact found
      · cases found
    | some type =>
      obtain ⟨asked, succeeds⟩ := outcome type found
      refine .inr ⟨rfl, name, named, ?_⟩
      rw [keyed]
      exact ⟨key, read, named_and_typed (fun _ _ done => laws.setVariableType done) (laws.setName set) asked succeeds⟩

theorem parameter_counts (laws : ListingLaws g.listing view) {name : String} {funcVa ordinal : Json} {i : Int32}
    {addr : space.Address} (named : el.getStr "name" "" = some name) (filled : name ≠ "")
    (keyless : el.get? "key" = none) (argument : isLocalAsked el = some false)
    (function : el.get? "func_va" = some funcVa) (placed : el.get? "ordinal" = some ordinal)
    (read : ordinal.getAsInt = some i) (inside : addressOf space el "func_va" = some addr)
    (met : paramMeets g { q with listing := applied.program } el) :
    Counts applied (parameterAt g.listing g.types q.manager i name el addr applied)
      (Whole g { q with listing := applied.program } el .params) fun p =>
      paramPresent g view { q with listing := p } el := by
  have shown {p : P} (nonneg : 0 ≤ i) (both : view.parameterName p addr i.toInt.toNat = some name ∧
      IsAsked g.types q.manager el "type_name" (view.parameterType p addr i.toInt.toNat)) :
      paramPresent g view { q with listing := p } el := by
    refine ⟨name, named, ?_⟩
    rw [keyless, function, placed]
    exact ⟨addr, i, inside, read, nonneg, both⟩
  rw [parameterAt]
  split
  · exact .refl
  rename_i known
  split
  · rename_i type n resolved counted
    have conditions := met name named filled
    rw [keyless, function, placed] at conditions
    have rest := conditions argument addr i n type inside read (Bool.not_eq_false _ ▸ known) counted resolved
    split
    · rename_i within
      rw [if_pos within] at rest
      cases set : g.listing.setParameterName applied.program addr i.toInt.toNat name with
      | none => exact .refl
      | some p =>
        obtain ⟨asked, succeeds⟩ := rest p set
        exact .inr ⟨rfl, shown within.1 (named_and_typed (fun _ _ done => laws.setParameterType done)
          (laws.setParameterName set) asked succeeds)⟩
    · rename_i beyond
      rw [if_neg beyond] at rest
      obtain ⟨asked, last, added⟩ := rest
      obtain ⟨p, done⟩ := Option.isSome_iff_exists.mp added
      obtain ⟨nameSet, typeSet⟩ := laws.addParameter counted done
      have nonneg : 0 ≤ i := by
        rw [Int32.le_iff_toInt_le, last]
        exact Int.natCast_nonneg n
      have index : i.toInt.toNat = n := by omega
      have final : (g.listing.addParameter applied.program addr name type).getD applied.program = p := by
        rw [done, Option.getD_some]
      refine .inr ⟨rfl, shown nonneg ?_⟩
      rw [final, index]
      exact ⟨nameSet, isAsked_of_set asked typeSet⟩
  · exact .refl

theorem param_counts (laws : ListingLaws g.listing view)
    (met : paramMeets g { q with listing := applied.program } el)
    (stepped : applyParameter g.listing g.types q.manager applied el = some next) :
    Counts applied next (Whole g { q with listing := applied.program } el .params) fun p =>
      paramPresent g view { q with listing := p } el := by
  rcases applyParameter_cases stepped with rfl | ⟨name, named, filled, keyed | placed⟩
  · exact .refl
  · obtain ⟨member, key, held, read, rfl⟩ := keyed
    exact variable_counts laws named filled held read met
  · obtain ⟨funcVa, ordinal, addr, i, keyless, function, held, argument, inside, read, rfl⟩ := placed
    exact parameter_counts laws named filled keyless argument function held read inside met

/-! ### Data -/

theorem clearAt_gone (laws : ListingLaws g.listing view) {addr : space.Address} {p p' : P}
    (cleared : clearAt g.listing addr p = some p') : view.dataAt p' addr = none := by
  rw [clearAt] at cleared
  split at cleared
  · rename_i nothing
    cases cleared
    exact laws.getDataAt nothing
  · rename_i last found
    exact laws.clearCodeUnits found cleared

theorem dataItem_counts (laws : ListingLaws g.listing view) {start : Program N P}
    (met : dataItemMeets g view start { q with listing := applied.program } el)
    (stepped : applyDataItem g.listing g.types q.manager applied el = some next) :
    Counts applied next (Whole g { q with listing := applied.program } el .dataItems) fun p =>
      dataItemPresent g view start { q with listing := p } el := by
  rcases applyDataItem_cases stepped with rfl | ⟨op, addr, operation, there, positive, rfl⟩
  · exact .refl
  have condition := met op addr operation positive
  rw [dataItemAt]
  by_cases deletes : op = "delete"
  · rw [if_pos deletes] at condition ⊢
    refine .attempt fun p cleared => ⟨op, addr, operation, there, ?_⟩
    rw [if_pos deletes]
    refine ⟨condition ?_, clearAt_gone laws cleared⟩
    rw [cleared]
    exact Option.some_ne_none _
  rw [if_neg deletes] at condition ⊢
  split
  · rename_i type resolved
    obtain ⟨text, named, spelled⟩ := Option.bind_eq_some_iff.mp resolved
    split
    · exact .refl
    rename_i cleared clears
    -- the data goes in after the old is cleared, which alone is not counted
    cases made : g.listing.createData cleared addr type with
    | none =>
      refine .inl ⟨rfl, fun whole => ?_⟩
      have anew := whole addr text type cleared positive named spelled clears
      rw [made] at anew
      cases anew
    | some p =>
      refine .inr ⟨rfl, op, addr, operation, there, ?_⟩
      rw [if_neg deletes]
      have given := condition text type cleared named spelled clears (by rw [made]; rfl)
      exact ⟨text, type, named, given, laws.createData made⟩
  · exact .refl

/-! ### Signatures -/

theorem conventionCall_leaves (laws : ListingLaws g.listing view) {p : P} {key : Int64} {cc : String} :
    view.returnType ((conventionCall g.listing p key cc).getD p) key = view.returnType p key ∧
      (conventionCall g.listing p key cc ≠ none →
        ∃ name,
          knownConvention (g.listing.callingConventions ((conventionCall g.listing p key cc).getD p)) cc = some name ∧
          view.convention ((conventionCall g.listing p key cc).getD p) key = some name) := by
  cases set : conventionCall g.listing p key cc with
  | none => exact ⟨rfl, fun set => absurd rfl set⟩
  | some after =>
    rw [conventionCall] at set
    split at set
    · cases set
    obtain ⟨name, known, called⟩ := Option.bind_eq_some_iff.mp set
    obtain ⟨named, typed, conventions⟩ := laws.setCallingConvention called
    rw [Option.getD_some, conventions]
    exact ⟨typed, fun _ => ⟨name, known, named⟩⟩

theorem funcSig_counts (laws : ListingLaws g.listing view)
    (met : funcSigMeets g { q with listing := applied.program } el)
    (stepped : applyFuncSig g.listing g.types q.manager applied el = some next) :
    Counts applied next True fun p => funcSigPresent g view { q with listing := p } el := by
  rcases applyFuncSig_cases stepped with rfl | ⟨key, type, cc, whole, known, resolved, given, rfl⟩
  · exact .refl
  let typed := type.bind fun given => g.listing.setReturnType applied.program key given
  let p := typed.getD applied.program
  let convention := conventionCall g.listing p key cc
  change Counts applied ⟨convention.getD p, applied.count + if typed.isSome || convention.isSome then 1 else 0⟩ True _
  rcases met key cc type whole known given resolved with neither | ⟨asked, typeSet, conventionSet⟩
  · have untyped : typed = none := neither.1
    have unset : convention = none := neither.2
    refine .inl ⟨?_, fun _ => ?_⟩
    · rw [untyped, unset]
      rfl
    · change convention.getD (typed.getD applied.program) = applied.program
      rw [unset, untyped]
      rfl
  have ⟨typeKept, conventionThere⟩ := @conventionCall_leaves _ _ _ g view laws p key cc
  cases counted : typed.isSome || convention.isSome with
  | false =>
    obtain ⟨untyped, unset⟩ := Bool.or_eq_false_iff.mp counted
    refine .inl ⟨rfl, fun _ => ?_⟩
    change convention.getD (typed.getD applied.program) = applied.program
    rw [Option.isNone_iff_eq_none.mp (Option.isSome_eq_false_iff.mp unset), Option.getD_none,
      Option.isNone_iff_eq_none.mp (Option.isSome_eq_false_iff.mp untyped), Option.getD_none]
  | true =>
    refine .inr ⟨rfl, key, cc, whole, ?_, given, fun asks => conventionThere (conventionSet asks)⟩
    refine isAsked_of_set asked fun wanted member => ?_
    cases member
    obtain ⟨p', set⟩ := Option.ne_none_iff_exists'.mp (typeSet (Option.some_ne_none _))
    have made : p = p' := by
      change typed.getD applied.program = p'
      rw [show typed = some p' from set, Option.getD_some]
    refine typeKept.trans ?_
    rw [made]
    exact laws.setReturnType set

end Listing

/-! ## Comments, bookmarks and equates -/

section Notes
variable {applied next : Counted N} {el : Json} {start q : Program N P}

/-- Columns that are all set: each that the entry has shows its text, and the others are
as they were. -/
theorem setColumns_shown (laws : NoteLaws g.notes view) {addr : space.Address} {columns : List CommentType}
    (once : columns.Nodup) {n n' : N} (set : g.notes.setColumns addr el columns n = (n', true)) :
    (∀ type ∈ columns, ∀ member, el.get? type.field = some member →
      ∃ text, member.getAsString = some text ∧ view.commentAt n' addr type = nullIfEmpty text) ∧
    ∀ type, type ∉ columns → view.commentAt n' addr type = view.commentAt n addr type := by
  induction columns generalizing n with
  | nil =>
    cases set
    exact ⟨fun _ member => absurd member List.not_mem_nil, fun _ _ => rfl⟩
  | cons type rest ih =>
    obtain ⟨apart, onceRest⟩ := List.nodup_cons.mp once
    rw [NoteLibrary.setColumns] at set
    cases given : el.get? type.field with
    | none =>
      rw [given] at set
      obtain ⟨shown, kept⟩ := ih onceRest set
      refine ⟨?_, fun other absent => kept other (mt (List.mem_cons_of_mem type) absent)⟩
      intro other listed member read
      rcases List.mem_cons.mp listed with rfl | later
      · rw [given] at read
        cases read
      · exact shown other later member read
    | some member =>
      rw [given] at set
      dsimp only at set
      cases called : member.getAsString.bind fun text => g.notes.setComment n addr type (nullIfEmpty text) with
      | none =>
        rw [called] at set
        cases set
      | some middle =>
        rw [called] at set
        obtain ⟨text, textRead, wrote⟩ := Option.bind_eq_some_iff.mp called
        obtain ⟨here, elsewhere⟩ := laws.setComment wrote
        obtain ⟨shown, kept⟩ := ih onceRest set
        refine ⟨?_, ?_⟩
        · intro other listed otherMember read
          rcases List.mem_cons.mp listed with rfl | later
          · rw [given] at read
            cases read
            exact ⟨text, textRead, (kept other apart).trans here⟩
          · exact shown other later otherMember read
        · intro other absent
          rw [List.mem_cons, not_or] at absent
          exact (kept other absent.2).trans (elsewhere other absent.1)

/-- Where no column is refused, all are set. -/
theorem setColumns_whole (addr : space.Address) (columns : List CommentType) (n : N)
    (lands : (columns.foldlM (columnLands g el addr) n).isSome) : (g.notes.setColumns addr el columns n).2 = true := by
  induction columns generalizing n with
  | nil => rfl
  | cons type rest ih =>
    rw [List.foldlM_cons, columnLands] at lands
    rw [NoteLibrary.setColumns]
    cases given : el.get? type.field with
    | none =>
      rw [given] at lands
      exact ih n lands
    | some member =>
      rw [given] at lands
      dsimp only at lands ⊢
      cases called : member.getAsString.bind fun text => g.notes.setComment n addr type (nullIfEmpty text) with
      | none =>
        rw [called] at lands
        cases lands
      | some middle =>
        rw [called] at lands
        exact ih middle lands

theorem comment_counts (laws : NoteLaws g.notes view) (stepped : g.notes.applyComment applied el = some next) :
    Counts applied next (Whole g { q with notes := applied.program } el .comments) fun n =>
      commentPresent view { q with notes := n } el := by
  rcases applyComment_cases stepped with rfl | ⟨addr, inside, rfl⟩
  · exact .refl
  refine .proceed (fun refused whole => ?_) fun whole => ⟨addr, inside, fun type => ?_⟩
  · have set := setColumns_whole addr columns applied.program (whole addr inside)
    exact absurd (set.symm.trans refused) (by decide)
  have every : type ∈ [CommentType.eol, .pre, .post, .plate, .repeatable] := by cases type <;> decide
  exact (setColumns_shown laws (by decide) (Prod.ext rfl whole)).1 type every

/-- Bookmarks that are all removed. -/
theorem removeBookmarks_run {lib : NoteLibrary space N} {keys : List (space.Address × String × String)} {n : N}
    (whole : (lib.removeBookmarks keys n).2 = true) : (keys.foldlM lib.removeBookmark n).isSome := by
  induction keys generalizing n with
  | nil => rfl
  | cons key rest ih =>
    rw [NoteLibrary.removeBookmarks] at whole
    rw [List.foldlM_cons]
    cases called : lib.removeBookmark n key with
    | none =>
      rw [called] at whole
      cases whole
    | some middle =>
      rw [called] at whole
      exact ih whole

theorem removeBookmarks_gone (laws : NoteLaws g.notes view) {keys : List (space.Address × String × String)} {n n' : N}
    (removed : g.notes.removeBookmarks keys n = (n', true)) {key : space.Address × String × String}
    (gone : key ∈ keys ∨ view.bookmarkAt n key = none) : view.bookmarkAt n' key = none := by
  induction keys generalizing n with
  | nil =>
    cases removed
    exact gone.resolve_left List.not_mem_nil
  | cons first rest ih =>
    rw [NoteLibrary.removeBookmarks] at removed
    cases called : g.notes.removeBookmark n first with
    | none =>
      rw [called] at removed
      cases removed
    | some middle =>
      rw [called] at removed
      obtain ⟨here, others⟩ := laws.removeBookmark called
      refine ih removed ?_
      rcases gone with listed | missing
      · rcases List.mem_cons.mp listed with rfl | later
        · exact .inr here
        · exact .inl later
      · exact .inr (others key missing)

theorem changeBookmark_shown (laws : NoteLaws g.notes view) {n : N} {addr : space.Address}
    {op type category comment : String} (whole : (g.notes.changeBookmark n addr op type category comment).2 = true) :
    if op = "delete" then
      view.bookmarkAt (g.notes.changeBookmark n addr op type category comment).1 (addr, type, category) = none
    else view.bookmarkAt (g.notes.changeBookmark n addr op type category comment).1 (addr, type, category) =
      some comment := by
  rw [NoteLibrary.changeBookmark] at whole ⊢
  by_cases deletes : op = "delete"
  · rw [if_pos deletes] at whole ⊢
    rw [if_pos deletes]
    cases listed : g.notes.getBookmarks n addr type with
    | none =>
      rw [listed] at whole
      cases whole
    | some keys =>
      rw [listed] at whole
      refine removeBookmarks_gone laws (Prod.ext rfl whole) ?_
      by_cases missing : view.bookmarkAt n (addr, type, category) = none
      · exact .inr missing
      · exact .inl (laws.getBookmarks listed missing)
  · rw [if_neg deletes] at whole ⊢
    rw [if_neg deletes]
    cases set : g.notes.setBookmark n addr type category comment with
    | none =>
      rw [set] at whole
      cases whole
    | some after => exact laws.setBookmark set

theorem bookmark_counts (laws : NoteLaws g.notes view)
    (met : bookmarkMeets g view start { q with notes := applied.program } el)
    (stepped : g.notes.applyBookmark applied el = some next) :
    Counts applied next (Whole g { q with notes := applied.program } el .bookmarks) fun n =>
      bookmarkPresent view start { q with notes := n } el := by
  rcases applyBookmark_cases stepped with
    rfl | ⟨op, type, category, comment, addr, operation, typed, categorized, commented, there, positive, rfl⟩
  · exact .refl
  refine .proceed (fun refused adds => ?_) fun whole =>
    ⟨op, type, category, comment, addr, operation, typed, categorized, commented, there, ?_⟩
  · -- one call sets a bookmark, or throws
    have keeps : op ≠ "delete" := by
      rintro rfl
      exact adds operation
    rw [NoteLibrary.changeBookmark, if_neg keeps] at refused ⊢
    split
    · rfl
    · rename_i after set
      rw [set] at refused
      cases refused
  have shown := changeBookmark_shown laws whole
  by_cases deletes : op = "delete"
  · subst deletes
    rw [if_pos rfl] at shown ⊢
    rw [NoteLibrary.changeBookmark, if_pos rfl] at whole
    cases listed : g.notes.getBookmarks applied.program addr type with
    | none =>
      rw [listed] at whole
      cases whole
    | some keys =>
      rw [listed] at whole
      exact ⟨met type category addr keys operation typed categorized positive listed (removeBookmarks_run whole), shown⟩
  · rw [if_neg deletes] at shown ⊢
    exact shown

/-- References that are all attached. -/
theorem attach_all (laws : NoteLaws g.notes view) {key : Nat} {refs : List (space.Address × Int32)} {n final : N}
    {record : EquateRecord space} (held : g.notes.getEquate n key = some record)
    (run : refs.foldlM (fun current ref => g.notes.addReference current key ref) n = some final) :
    refs.foldl (fun current ref => (g.notes.addReference current key ref).getD current) n = final ∧
      ∃ after, g.notes.getEquate final key = some after ∧ after.name = record.name ∧ after.value = record.value ∧
        (∀ ref ∈ record.refs, ref ∈ after.refs) ∧ ∀ ref ∈ refs, ref ∈ after.refs := by
  induction refs generalizing n record with
  | nil =>
    cases run
    exact ⟨rfl, record, held, rfl, rfl, fun _ member => member, fun _ member => absurd member List.not_mem_nil⟩
  | cons ref rest ih =>
    rw [List.foldlM_cons] at run
    obtain ⟨middle, added, later⟩ := Option.bind_eq_some_iff.mp run
    obtain ⟨before, found, grown⟩ := laws.addReference added
    obtain rfl : record = before := Option.some.inj (held.symm.trans found)
    obtain ⟨same, after, there, name, value, kept, attached⟩ := ih grown later
    refine ⟨?_, after, there, name, value, fun other member => kept other (Roster.mem_insert.mpr (.inr member)), ?_⟩
    · rw [List.foldl_cons, added, Option.getD_some]
      exact same
    · intro other member
      rcases List.mem_cons.mp member with rfl | inRest
      · exact kept other (Roster.mem_insert.mpr (.inl rfl))
      · exact attached other inRest

/-- The way to the end of a rename. -/
theorem renameEquate_whole {lib : NoteLibrary space N} {equates : Table Nat Nat} {n : N} {id : Int64} {name : String}
    (whole : (lib.renameEquate equates n id name).2 = true) :
    ∃ key found old removed newKey created, name ≠ "" ∧ keyOf id = some key ∧ equates.lookup key = some found ∧
      lib.getEquate n found = some old ∧ lib.removeEquate n old.name = some removed ∧
      lib.createEquate removed name old.value = some (newKey, created) ∧
      (lib.renameEquate equates n id name).1 =
        old.refs.list.foldl (fun current ref => (lib.addReference current newKey ref).getD current) created := by
  rw [NoteLibrary.renameEquate] at whole ⊢
  by_cases unnamed : name = ""
  · rw [if_pos unnamed] at whole
    cases whole
  rw [if_neg unnamed] at whole ⊢
  cases known : (keyOf id).bind equates.lookup with
  | none =>
    rw [known] at whole
    cases whole
  | some found =>
  obtain ⟨key, asked, listed⟩ := Option.bind_eq_some_iff.mp known
  rw [known] at whole
  dsimp only at whole ⊢
  cases held : lib.getEquate n found with
  | none =>
    rw [held] at whole
    cases whole
  | some old =>
  rw [held] at whole
  dsimp only at whole ⊢
  cases taken : lib.removeEquate n old.name with
  | none =>
    rw [taken] at whole
    cases whole
  | some removed =>
  rw [taken] at whole
  dsimp only at whole ⊢
  cases made : lib.createEquate removed name old.value with
  | none =>
    rw [made] at whole
    cases whole
  | some created =>
    exact ⟨key, found, old, removed, created.1, created.2, unnamed, asked, listed, held, taken, made, rfl⟩

theorem equateRename_counts (laws : NoteLaws g.notes view) {equates : Table Nat Nat}
    (own : ∀ key found, equates.lookup key = some found → found = key) {before : Program N P}
    (known : g.notes.byKey before.notes = equates)
    (met : equateRenameMeets g start before { q with notes := applied.program } el)
    (stepped : g.notes.applyEquateRename equates applied el = some next) :
    Counts applied next False fun n => equateRenamePresent g start { q with notes := n } el := by
  obtain ⟨id, name, idRead, named, rfl⟩ := applyEquateRename_cases stepped
  refine .proceed (fun _ never => never.elim) fun whole => ?_
  obtain ⟨key, found, old, removed, newKey, created, filled, asked, listed, held, taken, made, final⟩ :=
    renameEquate_whole whole
  obtain rfl : found = key := own key found listed
  have read := idRead found asked
  have there : (g.notes.byKey before.notes).lookup found ≠ none := by
    rw [known, listed]
    exact Option.some_ne_none _
  obtain ⟨unchanged, attaches⟩ := met found name old read named filled there held removed newKey created taken made
  obtain ⟨last, run⟩ := Option.isSome_iff_exists.mp attaches
  obtain ⟨same, after, recreated, renamed, value, -, attached⟩ := attach_all laws (laws.createEquate made) run
  rw [final, same]
  exact ⟨found, name, old, newKey, after, read, named, unchanged, recreated, renamed, value, attached⟩

theorem equateRef_counts (laws : NoteLaws g.notes view) {equates : Table Nat Nat}
    (own : ∀ key found, equates.lookup key = some found → found = key)
    (stepped : g.notes.applyEquateRefAdd equates applied el = some next) :
    Counts applied next True fun n => equateRefPresent g { q with notes := n } el := by
  obtain ⟨id, va, opIndex, idRead, vaRead, indexRead, rfl⟩ := applyEquateRefAdd_cases stepped
  refine .attempt fun n added => ?_
  obtain ⟨found, known, placed⟩ := Option.bind_eq_some_iff.mp added
  obtain ⟨key, asked, listed⟩ := Option.bind_eq_some_iff.mp known
  obtain rfl : found = key := own key found listed
  obtain ⟨addr, inside, called⟩ := Option.bind_eq_some_iff.mp placed
  obtain ⟨record, -, grown⟩ := laws.addReference called
  exact ⟨found, addr, opIndex, _, idRead found asked, vaRead addr inside, indexRead, grown,
    Roster.mem_insert.mpr (.inl rfl)⟩

end Notes

/-! ## All arrays -/

/-- An entry meets its condition and stands clear of those before it. -/
def Meets (g : Ghidra space N P) (view : View space N P) (start : Program N P) (c : Category)
    (past : List (Category × Json)) (before q : Program N P) (el : Json) : Prop :=
  meets g view start c before q el ∧ Clear g view q el start past c

section Loops
variable {start : Program N P} {c : Category}

/-- An entry that is not half done has all it asks for, or has changed nothing. -/
theorem Counts.done {applied next : Counted P} {whole : Prop} {shown : P → Prop}
    (counts : Counts applied next whole shown) (kept : whole) : next.program = applied.program ∨ shown next.program :=
  counts.imp (fun same => same.2 kept) And.right

theorem Counts.honest {applied next : Counted P} {whole : Prop} {shown : P → Prop}
    (counts : Counts applied next whole shown) :
    next.count = applied.count ∨ next.count = applied.count + 1 ∧ shown next.program :=
  counts.imp_left And.left

theorem listingLoop_honest {step : DataTypeManager → Counted P → Json → Option (Counted P)}
    (own : Json → Option (Spot space)) (touches : ∀ q el, Touches g view q el c = TouchesSpot view q (own el))
    (each : ∀ before (q : Program N P) applied next el,
      meets g view start c before { q with listing := applied.program } el →
      step q.manager applied el = some next →
      Counts applied next (Whole g { q with listing := applied.program } el c)
          (fun p => present g view start c { q with listing := p } el) ∧
        Moves g.listing view (own el) applied.program next.program) :
    (listingLoop step).Honest (Meets g view start c) (present g view start) c where
  zero entered := by
    cases entered
    rfl
  step met stepped := (each _ _ _ _ _ met.1 stepped).1.honest
  keeps {past q s el next} met stepped := by
    obtain ⟨counts, moves⟩ := each q q s next el met.1 stepped
    refine keeps_of_clear met.2 (fun t untouched => ?_) (fun _ _ _ _ _ _ spelled => spelled) fun whole => ?_
    · rw [touches] at untouched
      exact @same_of_moves _ _ _ g view { q with listing := s.program } _ next.program moves t untouched
    · exact (counts.done whole).imp_left fun same => congrArg (fun p => { q with listing := p }) same

theorem notesLoop_honest {step : N → Counted N → Json → Option (Counted N)}
    (each : ∀ (q : Program N P) applied next el, meets g view start c q { q with notes := applied.program } el →
      step q.notes applied el = some next →
      Counts applied next (Whole g { q with notes := applied.program } el c)
          (fun n => present g view start c { q with notes := n } el) ∧
        NotesKept g.notes view (Touches g view { q with notes := applied.program } el c) applied.program next.program) :
    (notesLoop step).Honest (Meets g view start c) (present g view start) c where
  zero entered := by
    cases entered
    rfl
  step met stepped := (each _ _ _ _ met.1 stepped).1.honest
  keeps {past q s el next} met stepped := by
    obtain ⟨counts, kept⟩ := each q s next el met.1 stepped
    refine keeps_of_clear met.2 (same_of_notes kept) (fun _ _ _ _ _ _ spelled => spelled) fun whole => ?_
    exact (counts.done whole).imp_left fun same => congrArg (fun n => { q with notes := n }) same

theorem typesLoop_honest (laws : TypeLaws g.types g.store) (frames : TypeFrames g.store) :
    (typesLoop g).Honest (Meets g view start .dataTypes) (present g view start) .dataTypes where
  zero entered := by
    obtain ⟨stubbed, -, rfl⟩ := Option.map_eq_some_iff.mp entered
    rfl
  step met stepped :=
    (AppliedTypes.type_counts laws met.1 stepped).imp_left fun same => congrArg TypesApplied.count same
  keeps met stepped := types_keep laws frames met.1 met.2 stepped

theorem loopOf_honest (laws : Laws g view) (frames : Frames g view) (start : Program N P) (c : Category) :
    (loopOf g c).Honest (Meets g view start c) (present g view start) c := by
  have own {n : N} (key found : Nat) (listed : (g.notes.byKey n).lookup key = some found) : found = key :=
    laws.notes.byKey listed
  cases c with
  | dataTypes => exact typesLoop_honest laws.types frames.types
  | symbols =>
    rw [loopOf]
    refine listingLoop_honest (symbolSpot space) (fun _ _ => rfl) fun _ q applied next el _ stepped => ?_
    exact ⟨symbol_counts laws.listing stepped, symbol_moves frames.listing stepped⟩
  | comments =>
    rw [loopOf]
    refine notesLoop_honest fun q applied next el _ stepped => ?_
    exact ⟨comment_counts laws.notes stepped, comment_keeps frames.notes stepped⟩
  | equateRenames =>
    rw [loopOf]
    refine notesLoop_honest fun q applied next el met stepped => ?_
    exact ⟨equateRename_counts laws.notes own rfl met stepped, equateRename_keeps frames.notes own stepped⟩
  | equateRefAdds =>
    rw [loopOf]
    refine notesLoop_honest fun q applied next el _ stepped => ?_
    exact ⟨equateRef_counts laws.notes own stepped, equateRef_keeps frames.notes stepped⟩
  | bookmarks =>
    rw [loopOf]
    refine notesLoop_honest fun q applied next el met stepped => ?_
    exact ⟨bookmark_counts laws.notes met stepped, bookmark_keeps frames.notes stepped⟩
  | params =>
    rw [loopOf]
    refine listingLoop_honest (paramSpot space) (fun _ _ => rfl) fun _ q applied next el met stepped => ?_
    exact ⟨param_counts laws.listing met stepped, param_moves frames.listing met stepped⟩
  | dataItems =>
    rw [loopOf]
    refine listingLoop_honest (dataSpot space) (fun _ _ => rfl) fun _ q applied next el met stepped => ?_
    exact ⟨dataItem_counts laws.listing met stepped, dataItem_moves frames.listing stepped⟩
  | funcSigs =>
    rw [loopOf]
    refine listingLoop_honest (signatureSpot space) (fun _ _ => rfl) fun _ q applied next el met stepped => ?_
    exact ⟨funcSig_counts laws.listing met stepped, signature_moves frames.listing stepped⟩

/-- Only the types have a pass of their own before the first entry counts. -/
theorem loopOf_still (later : c ≠ .dataTypes) : (loopOf g c).Still := by
  intro q items entered enters
  cases c with
  | dataTypes => exact absurd rfl later
  | symbols | comments | equateRenames | equateRefAdds | bookmarks | params | dataItems | funcSigs =>
    cases enters
    rfl

end Loops

/-- When its turn comes, each entry of a request meets its condition and stands clear of
those before it. -/
def Fair (g : Ghidra space N P) (view : View space N P) (start : Program N P) (request : Category → List Json) : Prop :=
  AllMeet (Meets g view start) (loopOf g) request [] order start

/-- Names and types of variables, by key. -/
structure Variables where
  names : Table Int64 String := ∅
  types : Table Int64 DataTypeRef := ∅

/-- Only `int` is a type. -/
def intOnly : TypeLibrary :=
  { VariableRenames.noTypes with
    parse := fun _ text => if text = "int" then some (.parsed "int") else none
    growStructure := fun s amount => { s with length := s.length + amount } }

/-- Comments, bookmarks and variables in tables. There are no equates, functions or data, and
the calls about them throw. -/
def tables : Ghidra {} (ProgramDB {}) Variables where
  types := intOnly
  store := tableStore intOnly
  notes :=
    { setComment := fun n addr type text => some (setComment n addr type text)
      getBookmarks := fun n addr type => some (getBookmarks n addr type)
      removeBookmark := fun n key => some (removeBookmark n key)
      setBookmark := fun n addr type category comment => some (setBookmark n addr type category comment)
      byKey := fun _ => ∅
      getEquate := fun _ _ => none
      removeEquate := fun _ _ => none
      createEquate := fun _ _ _ => none
      addReference := fun _ _ _ => none }
  listing :=
    { hasSymbol := fun p key => (p.names.lookup key).isSome
      setName := fun p key name => some { p with names := p.names.set key name }
      createLabel := fun _ _ _ => none
      isVariable := fun _ _ => true
      setVariableType := fun p key type => some { p with types := p.types.set key type }
      hasFunctionAt := fun _ _ => false
      countParameters := fun _ _ => none
      setParameterName := fun _ _ _ _ => none
      setParameterType := fun _ _ _ _ => none
      addParameter := fun _ _ _ _ => none
      getDataAt := fun _ _ => none
      clearCodeUnits := fun _ _ _ => none
      createData := fun _ _ _ => none
      hasFunction := fun _ _ => some false
      setReturnType := fun _ _ _ => none
      callingConventions := fun _ => []
      setCallingConvention := fun _ _ _ => none }

def tablesView : View {} (ProgramDB {}) Variables where
  commentAt n addr type := n.comments.lookup (addr, type)
  bookmarkAt n key := n.bookmarks.lookup key
  symbolName p key := p.names.lookup key
  hasLabel _ _ _ := False
  variableType p key := p.types.lookup key
  parameterName _ _ _ := none
  parameterType _ _ _ := none
  dataAt _ _ := none
  returnType _ _ := none
  convention _ _ := none
  apart _ one other := one ≠ other

theorem lookup_setComment (n : ProgramDB {}) (addr : AddressSpace.Address {}) (type : CommentType)
    (text : Option String)
    (probe : AddressSpace.Address {} × CommentType) :
    (setComment n addr type text).comments.lookup probe =
      if probe = (addr, type) then text else n.comments.lookup probe := by
  cases text with
  | none => exact Table.lookup_erase_eq n.comments (addr, type) probe
  | some text => exact Table.lookup_set n.comments (addr, type) probe text

theorem tables_laws : Laws tables tablesView where
  types :=
    { insertAtOffset := nofun
      add := nofun
      addToUnion := nofun
      growStructure := fun _ _ _ => rfl
      structureLength := fun _ => rfl
      addEntry := nofun
      addDataType := by
        intro manager name content stored called
        cases called
        refine ⟨{ id := (manager.addDataType intOnly name content).2, content }, ?_, rfl⟩
        rw [DataTypeManager.getDataType, DataTypeManager.addDataType, Table.lookup_set, if_pos rfl]
      remove := by
        intro manager after name called
        cases called
        rw [DataTypeManager.getDataType, Table.lookup_erase_eq, if_pos rfl] }
  notes :=
    { setComment := by
        intro n n' addr type text called
        cases called
        refine ⟨(lookup_setComment n addr type text _).trans (if_pos rfl), fun other apart => ?_⟩
        exact (lookup_setComment n addr type text _).trans (if_neg fun same => apart (congrArg Prod.snd same))
      getBookmarks := by
        intro n addr type keys category called there
        cases called
        exact BookmarkWriteback.mem_getBookmarks.mpr
          ⟨AList.lookup_isSome.mp (Option.isSome_iff_ne_none.mpr there), rfl, rfl⟩
      removeBookmark := by
        intro n n' key called
        cases called
        refine ⟨(Table.lookup_erase_eq n.bookmarks key key).trans (if_pos rfl), fun other missing => ?_⟩
        refine (Table.lookup_erase_eq n.bookmarks key other).trans ?_
        rw [show n.bookmarks.lookup other = none from missing, ite_self]
      setBookmark := by
        intro n n' addr type category comment called
        cases called
        exact (Table.lookup_set n.bookmarks _ _ comment).trans (if_pos rfl)
      byKey := nofun
      createEquate := nofun
      addReference := nofun }
  listing :=
    { setName := by
        intro p p' key name called
        cases called
        exact (Table.lookup_set p.names key key name).trans (if_pos rfl)
      createLabel := nofun
      setVariableType := by
        intro p p' key type called
        cases called
        exact ⟨(Table.lookup_set p.types key key type).trans (if_pos rfl), rfl⟩
      setParameterName := nofun
      setParameterType := nofun
      addParameter := nofun
      getDataAt := fun _ => rfl
      clearCodeUnits := nofun
      createData := nofun
      setReturnType := nofun
      setCallingConvention := nofun }

/-- A call that changes the name and type of one variable leaves the other spots alone. -/
theorem leaves_variable {p p' : Variables} {key : Int64}
    (names : ∀ other ≠ key, p'.names.lookup other = p.names.lookup other)
    (types : ∀ other ≠ key, p'.types.lookup other = p.types.lookup other) :
    Leaves tables.listing tablesView (.symbol key) p p' := by
  intro spot apart
  refine ⟨apart, ?_⟩
  cases spot with
  | symbol other =>
    have others : other ≠ key := fun same => apart (congrArg Spot.symbol same.symm)
    exact ⟨names other others, types other others⟩
  | label addr other => exact id
  | parameter addr i => exact ⟨rfl, rfl⟩
  | data addr => rfl
  | signature other => exact ⟨rfl, rfl, rfl⟩

theorem tables_frames : Frames tables tablesView where
  types :=
    { addDataType := by
        intro manager name content stored other called apart
        cases called
        rw [DataTypeManager.getDataType, DataTypeManager.getDataType, DataTypeManager.addDataType, Table.lookup_set,
          if_neg fun same => apart (congrArg Prod.snd same)]
      remove := by
        intro manager manager' name other called apart
        cases called
        rw [DataTypeManager.getDataType, DataTypeManager.getDataType, Table.lookup_erase_eq,
          if_neg fun same => apart (congrArg Prod.snd same)] }
  notes :=
    { setComment := by
        intro n n' addr type text called
        cases called
        refine ⟨fun other column free => ?_, fun _ _ => ?_, fun _ _ => ?_, by intros; contradiction⟩
        · refine (lookup_setComment n addr type text _).trans (if_neg fun same => free ?_)
          cases same
          rfl
        · cases text <;> rfl
        · cases text <;> exact id
      getBookmarks := by
        intro n addr type keys called key listed
        cases called
        exact (BookmarkWriteback.mem_getBookmarks.mp listed).2
      removeBookmark := by
        intro n n' key called
        cases called
        refine ⟨fun _ _ _ => rfl, fun other free => ?_, fun other _ missing => ?_, by intros; contradiction⟩
        · exact (Table.lookup_erase_eq n.bookmarks key other).trans
            (if_neg fun same => free (congrArg Thing.bookmark same))
        · exact (tables_laws.notes.removeBookmark rfl).2 other missing
      setBookmark := by
        intro n n' addr type category comment called
        cases called
        have kept (key : AddressSpace.Address {} × String × String) (apart : key ≠ (addr, type, category)) :
            (setBookmark n addr type category comment).bookmarks.lookup key = n.bookmarks.lookup key :=
          (Table.lookup_set n.bookmarks _ key comment).trans (if_neg apart)
        refine ⟨fun _ _ _ => rfl, fun key free => kept key fun same => free (.inl (congrArg Thing.bookmark same)),
          ?_, by intros; contradiction⟩
        intro key free missing
        exact (kept key fun same => free (.inr (congrArg Thing.noBookmark same))).trans missing
      removeEquate := by intros; contradiction
      createEquate := by intros; contradiction
      addReference := by intros; contradiction }
  listing :=
    { setName := by
        intro p p' key name called
        cases called
        exact leaves_variable (fun other apart => (Table.lookup_set p.names key other name).trans (if_neg apart))
          fun _ _ => rfl
      createLabel := by intros; contradiction
      setVariableType := by
        intro p p' key type called
        cases called
        exact leaves_variable (fun _ _ => rfl)
          fun other apart => (Table.lookup_set p.types key other type).trans (if_neg apart)
      setParameterName := by intros; contradiction
      setParameterType := by intros; contradiction
      addParameter := by intros; contradiction
      clearCodeUnits := by intros; contradiction
      createData := by intros; contradiction
      setReturnType := by intros; contradiction
      setCallingConvention := by intros; contradiction }

/-! ## A request -/

def renameEntry : Json := .obj [("key", .int 1), ("name", .str "start")]

def commentEntry : Json := .obj [("va", .str "0x401000"), ("eol", .str "entry point")]

def bookmarkEntry : Json := .obj [("op", .str "add"), ("addr", .str "0x401000"), ("comment", .str "todo")]

def retypeEntry (typeName : String) : Json :=
  .obj [("key", .int 2), ("name", .str "count"), ("type_name", .str typeName)]

/-- A rename, a comment, a bookmark that is sent twice and a parameter that gets a name and
a type. -/
def edits : Category → List Json
  | .symbols => [renameEntry]
  | .comments => [commentEntry]
  | .bookmarks => [bookmarkEntry, bookmarkEntry]
  | .params => [retypeEntry "int"]
  | .dataTypes | .equateRenames | .equateRefAdds | .dataItems | .funcSigs => []

def twoNames : Program (ProgramDB {}) Variables where
  manager := ∅
  notes := {}
  listing := { names := (Table.set ∅ 1 "FUN_00401000").set 2 "param_1" }

/-- What the entries of an array are about. -/
def thingOf : Category → Option (Thing {})
  | .symbols => some (.spot (.symbol 1))
  | .comments => some (.comment (flat 0x401000) .eol)
  | .bookmarks => some (.bookmark (flat 0x401000, "Note", ""))
  | .params => some (.spot (.symbol 2))
  | .dataTypes | .equateRenames | .equateRefAdds | .dataItems | .funcSigs => none

section Edits
variable {q : Program (ProgramDB {}) Variables} {c d : Category} {el : Json} {t : Thing {}}

theorem thingOf_inj (one : thingOf c = some t) (two : thingOf d = some t) : c = d := by
  have known : (thingOf c).isSome := by rw [one]; rfl
  have same := one.trans two.symm
  clear one two
  revert known same
  cases c <;> cases d <;> simp [thingOf]

private theorem comment_about (about : About tables q commentEntry .comments t) : thingOf .comments = some t := by
  obtain ⟨addr, type, inside, given, rfl⟩ := about
  have place : addressOf {} commentEntry "va" = some (flat 0x401000) := by decide
  cases place.symm.trans inside
  cases type with
  | eol => rfl
  | pre | post | plate | repeatable => exact absurd (by decide) given

theorem about_edits (listed : el ∈ edits c) (about : About tables q el c t) : thingOf c = some t := by
  cases c with
  | symbols =>
    cases List.mem_singleton.mp listed
    obtain ⟨spot, named, rfl⟩ := about
    cases named
    rfl
  | comments =>
    cases List.mem_singleton.mp listed
    exact comment_about about
  | bookmarks =>
    have same : el = bookmarkEntry := by simpa [edits] using listed
    subst same
    obtain ⟨key, found, rfl⟩ := about
    have spelled : bookmarkKey {} bookmarkEntry = some (flat 0x401000, "Note", "") := by decide
    cases spelled.symm.trans found
    rfl
  | params =>
    cases List.mem_singleton.mp listed
    obtain ⟨spot, named, rfl⟩ := about
    cases named
    rfl
  | dataTypes | equateRenames | equateRefAdds | dataItems | funcSigs => cases listed

theorem touches_edits (listed : el ∈ edits c) (touches : Touches tables tablesView q el c t) :
    thingOf c = some t ∨ ∃ key, t = .noBookmark key := by
  cases c with
  | symbols =>
    cases List.mem_singleton.mp listed
    obtain ⟨mine, named, spot, rfl, near⟩ := touches
    cases named
    cases not_not.mp near
    exact .inl rfl
  | comments =>
    cases List.mem_singleton.mp listed
    exact .inl (@comment_about q t touches)
  | bookmarks =>
    have same : el = bookmarkEntry := by simpa [edits] using listed
    subst same
    obtain ⟨key, found, changed⟩ := touches
    have spelled : bookmarkKey {} bookmarkEntry = some (flat 0x401000, "Note", "") := by decide
    cases spelled.symm.trans found
    rw [if_neg (by decide)] at changed
    rcases changed with rfl | rfl
    · exact .inl rfl
    · exact .inr ⟨_, rfl⟩
  | params =>
    cases List.mem_singleton.mp listed
    obtain ⟨mine, named, spot, rfl, near⟩ := touches
    cases named
    cases not_not.mp near
    exact .inl rfl
  | dataTypes | equateRenames | equateRefAdds | dataItems | funcSigs => cases listed

theorem int_resolves (manager : DataTypeManager) :
    resolveOptional intOnly manager (retypeEntry "int") "type_name" = some (givenType intOnly manager "int") ∧
      (givenType intOnly manager "int").isSome := by
  have spelled : String.ofList (normalizePrimitives intOnly (trim "int".toList)) = "int" := by decide
  change resolveDataType intOnly manager "int" = _ ∧ _
  rw [resolveDataType, if_neg (by decide), givenType]
  dsimp only
  rw [spelled]
  cases storedRef manager "int" with
  | some found => exact ⟨rfl, rfl⟩
  | none => exact ⟨rfl, rfl⟩

theorem edits_whole (listed : el ∈ edits c) : Whole tables q el c := by
  cases c with
  | comments =>
    cases List.mem_singleton.mp listed
    exact fun _ _ => rfl
  | bookmarks =>
    have same : el = bookmarkEntry := by simpa [edits] using listed
    subst same
    exact (by decide : bookmarkEntry.getStr "op" "add" ≠ some "delete")
  | params =>
    cases List.mem_singleton.mp listed
    intro missing
    cases missing.symm.trans (int_resolves q.manager).1
  | symbols => trivial
  | dataTypes | equateRenames | equateRefAdds | dataItems | funcSigs => cases listed

theorem edits_meet (listed : el ∈ edits c) (before : Program (ProgramDB {}) Variables) :
    meets tables tablesView twoNames c before q el := by
  cases c with
  | symbols | comments => trivial
  | bookmarks =>
    have same : el = bookmarkEntry := by simpa [edits] using listed
    subst same
    intro _ _ _ _ deletes
    exact absurd deletes (by decide)
  | params =>
    cases List.mem_singleton.mp listed
    intro name named _ key p read _ set
    refine ⟨fun _ => rfl, fun type resolved => ?_⟩
    obtain ⟨found, there⟩ := int_resolves q.manager
    cases found.symm.trans resolved
    refine ⟨fun text asked => ?_, fun _ _ => rfl⟩
    cases asked
    obtain ⟨given, spelled⟩ := Option.isSome_iff_exists.mp there
    exact ⟨given, spelled, spelled⟩
  | dataTypes | equateRenames | equateRefAdds | dataItems | funcSigs => cases listed

/-- Entries of two arrays are about different things, and those of one are the same. -/
theorem edits_clear (listed : el ∈ edits c) {past : List (Category × Json)}
    (known : ∀ item ∈ past, item.2 ∈ edits item.1) :
    Clear tables tablesView q el twoNames past c := by
  rintro ⟨d, other⟩ member
  have inside := known _ member
  by_cases same : c = d
  · subst same
    have equal : other = el := by
      cases c <;> simp_all [edits]
    subst equal
    exact .inr ⟨fun _ shown => shown, edits_whole listed⟩
  · refine .inl ⟨fun t about touches => ?_, fun types => ?_⟩
    · have mine := about_edits inside about
      rcases touches_edits listed touches with changed | ⟨key, rfl⟩
      · exact same (thingOf_inj changed mine)
      · cases d <;> cases mine
    · subst types
      cases listed

theorem edits_fair : Fair tables tablesView twoNames edits :=
  allMeet_of_always (fun _ _ listed _ known before _ => ⟨edits_meet listed before, edits_clear listed known⟩)
    fun _ none => absurd none List.not_mem_nil

end Edits

/-- A request with one entry for a variable. -/
def paramsOnly (el : Json) : Category → List Json
  | .params => [el]
  | _ => []

end GhidraBridge.AppliedCounts
