import GhidraBridge.SymbolImport
import GhidraBridge.CommentEdits

/-! What an import leaves of the user's work. Names and comments that were there
before stay, with the last record as their baseline. Among the records of one
address, however, the first one applied counts as the user's to the ones after
it, so a check-in may find a difference where the user never was. -/
namespace GhidraBridge.ImportPreserves
open Lib SyncEngine CheckinState WritebackMaps SymbolImport

/-! ## Address comments -/

/-- Text somebody wrote. -/
def isWritten (text : String) : Bool := text ≠ ""

/-- The address comments of the records at an address of the view, in order. -/
def textsAt (rebase : UInt64) (comments : List GhidraComment) (addr : UInt64) : List String :=
  ((comments.filter fun comm => comm.merged ≠ "").filter fun comm => comm.addr + rebase = addr).map
    GhidraComment.merged

/-- Text already there and different from the new one stays. -/
theorem write_isWritten (held : Option String) (text : String) :
    Settle.write isWritten held text =
      if held.getD "" = "" ∨ held.getD "" = text then some text else held := by
  cases held with
  | none => rfl
  | some old =>
    rw [Settle.write, isWritten]
    by_cases empty : old = "" <;> by_cases same : old = text <;> simp [empty, same]

/-- A record with text is written into the cell of its address. -/
theorem applyComment_lookup (rebase : UInt64) (s : ImportState) (comm : GhidraComment) (addr : UInt64) :
    (applyComment rebase s comm).view.comments.lookup addr =
      if comm.merged ≠ "" ∧ comm.addr + rebase = addr then
        Settle.write isWritten (s.view.comments.lookup addr) comm.merged
      else s.view.comments.lookup addr := by
  have plate (caddr : UInt64) (s : ImportState) :
      (applyPlateComment caddr comm s).view.comments = s.view.comments := by rw [applyPlateComment_frame]
  unfold applyComment
  dsimp only
  rw [plate, applyAddressComment, write_isWritten]
  by_cases silent : comm.merged = ""
  · simp [silent]
  · simp only [silent, if_false, ne_eq, not_false_eq_true, true_and]
    by_cases here : comm.addr + rebase = addr
    · subst here
      rw [if_pos rfl]
      unfold BinaryView.getCommentForAddress
      split
      · exact (Table.lookup_set _ _ _ _).trans (if_pos rfl)
      · rfl
    · rw [if_neg here]
      split
      · exact (Table.lookup_set _ _ _ _).trans (if_neg (Ne.symm here))
      · rfl

theorem foldl_applyComment_lookup (rebase : UInt64) (comments : List GhidraComment) (s : ImportState)
    (addr : UInt64) :
    (comments.foldl (applyComment rebase) s).view.comments.lookup addr =
      (textsAt rebase comments addr).foldl (Settle.write isWritten) (s.view.comments.lookup addr) := by
  induction comments generalizing s with
  | nil => rfl
  | cons comm rest ih =>
    rw [List.foldl_cons, ih, applyComment_lookup, textsAt, textsAt]
    by_cases silent : comm.merged = "" <;> by_cases here : comm.addr + rebase = addr <;> simp [silent, here]

section
variable (view : BinaryView) (data : GhidraDbExport)

/-- The import leaves the first comment written at an address, be it the view's or
a record's. -/
theorem applyToView_lookup_comments (addr : UInt64) :
    (applyToView view data).1.comments.lookup addr =
      (textsAt (rebaseOf view data) data.comments addr).foldl (Settle.write isWritten)
        (view.comments.lookup addr) := by
  rw [applyToView_comments, afterComments, foldl_applyComment_lookup, afterSymbols_comments]

theorem textsAt_written {rebase addr : UInt64} {comments : List GhidraComment} {text : String}
    (listed : text ∈ textsAt rebase comments addr) : text ≠ "" := by
  obtain ⟨comm, member, rfl⟩ := List.mem_map.mp listed
  have written := (List.mem_filter.mp (List.mem_filter.mp member).1).2
  exact of_decide_eq_true written

/-- A comment that is there stays, else the first record's text is shown. -/
theorem applyToView_getCommentForAddress (addr : UInt64) :
    (applyToView view data).1.getCommentForAddress addr =
      if view.getCommentForAddress addr = "" then
        (textsAt (rebaseOf view data) data.comments addr).head?.getD ""
      else view.getCommentForAddress addr := by
  have written {text : String} (listed : text ∈ textsAt (rebaseOf view data) data.comments addr) :=
    textsAt_written listed
  unfold BinaryView.getCommentForAddress
  rw [applyToView_lookup_comments]
  generalize textsAt (rebaseOf view data) data.comments addr = texts at written ⊢
  cases held : view.comments.lookup addr with
  | none =>
    cases texts with
    | nil => rfl
    | cons text rest =>
      have final : isWritten text = true := decide_eq_true (written List.mem_cons_self)
      rw [List.foldl_cons, Settle.write, Settle.foldl_write_of_settled final]
      rfl
  | some old =>
    by_cases empty : old = ""
    · subst empty
      cases texts with
      | nil => rfl
      | cons text rest =>
        have final : isWritten text = true := decide_eq_true (written List.mem_cons_self)
        have replaced : Settle.write isWritten (some "") text = some text := rfl
        rw [List.foldl_cons, replaced, Settle.foldl_write_of_settled final]
        rfl
    · have final : isWritten old = true := decide_eq_true empty
      rw [Settle.foldl_write_of_settled final, Option.getD_some, if_neg empty]

theorem foldl_mapComment_addrToOriginalComment (rebase : UInt64) (comments : List GhidraComment)
    (result : SyncResult) :
    (comments.foldl (mapComment rebase) result).addrToOriginalComment =
      result.addrToOriginalComment.writeAll (fun comm => comm.addr + rebase) GhidraComment.merged
        (comments.filter fun comm => comm.merged ≠ "") := by
  have step (result : SyncResult) (comm : GhidraComment) :
      (mapComment rebase result comm).addrToOriginalComment =
        if comm.merged = "" then result.addrToOriginalComment
        else result.addrToOriginalComment.set (comm.addr + rebase) comm.merged := by
    rw [mapComment_eq, mapPlate, mapAddressComment, recordCommentKey]
    repeat' split
    all_goals rfl
  induction comments generalizing result with
  | nil => rfl
  | cons comm rest ih =>
    rw [List.foldl_cons, ih, step]
    by_cases silent : comm.merged = "" <;> simp [silent]

/-- The baseline of an address is the last record's text. -/
theorem lookup_addrToOriginalComment (addr : UInt64) :
    (applyToView view data).2.addrToOriginalComment.lookup addr =
      (textsAt (rebaseOf view data) data.comments addr).getLast? := by
  have recorded := congrArg SyncResult.addrToOriginalComment (applyToView_baseline view data)
  have start : (data.symbols.foldl (mapSymbol (rebaseOf view data))
      ({ imageBase := data.imageBase } : SyncResult)).addrToOriginalComment = ∅ :=
    @Fold.foldl_keeps SyncResult GhidraSymbol _ (mapSymbol (rebaseOf view data)) SyncResult.addrToOriginalComment
      (fun result sym => rfl) data.symbols _
  have seen : textsAt (rebaseOf view data) (seenComments view data) addr =
      textsAt (rebaseOf view data) data.comments addr := by
    unfold textsAt seenComments
    rw [List.filter_map, List.filter_map, List.map_map]
    rfl
  have rebuilt := foldl_mapComment_addrToOriginalComment (rebaseOf view data) (seenComments view data)
    (data.symbols.foldl (mapSymbol (rebaseOf view data)) { imageBase := data.imageBase })
  rw [start] at rebuilt
  have table := recorded.trans rebuilt
  change (applyToView view data).2.addrToOriginalComment = _ at table
  rw [table, Table.lookup_writeAll_eq_getLast?, AList.lookup_empty, Option.or_none, ← seen]
  rfl

end
/-! ## Function comments -/

/-- The function as it was, but for what the import may write into it. -/
def FuncKept (func now : BNFunction) : Prop :=
  now.start = func.start ∧ (func.comment ≠ "" → now.comment = func.comment)

/-- Every function keeps its place, its start and a comment somebody wrote. -/
def FunctionsKept (before after : List BNFunction) : Prop :=
  ∀ (i : Nat) (func : BNFunction), before[i]? = some func → ∃ now, after[i]? = some now ∧ FuncKept func now

theorem FuncKept.refl (func : BNFunction) : FuncKept func func := ⟨rfl, fun _ => rfl⟩

theorem FuncKept.trans {first second third : BNFunction} (one : FuncKept first second)
    (two : FuncKept second third) : FuncKept first third := by
  refine ⟨two.1.trans one.1, fun written => ?_⟩
  have same := one.2 written
  exact (two.2 (same.symm ▸ written)).trans same

theorem FunctionsKept.refl (functions : List BNFunction) : FunctionsKept functions functions :=
  fun _ func held => ⟨func, held, .refl func⟩

theorem FunctionsKept.trans {first second third : List BNFunction} (one : FunctionsKept first second)
    (two : FunctionsKept second third) : FunctionsKept first third := by
  intro i func held
  obtain ⟨now, found, kept⟩ := one i func held
  obtain ⟨later, there, still⟩ := two i now found
  exact ⟨later, there, kept.trans still⟩

/-- New functions come behind the others. -/
theorem FunctionsKept.append (functions added : List BNFunction) :
    FunctionsKept functions (functions ++ added) := by
  intro i func held
  obtain ⟨inside, _⟩ := List.getElem?_eq_some_iff.mp held
  exact ⟨func, (List.getElem?_append_left inside).trans held, .refl func⟩

theorem FunctionsKept.map {change : BNFunction → BNFunction} (keeps : ∀ func, FuncKept func (change func))
    (functions : List BNFunction) : FunctionsKept functions (functions.map change) := by
  intro i func held
  exact ⟨change func, by rw [List.getElem?_map, held, Option.map_some], keeps func⟩

/-- A call on the function found first keeps the others as they are. -/
theorem FunctionsKept.modifyFirst {found : BNFunction → Bool} {change : BNFunction → BNFunction}
    {functions : List BNFunction} (keeps : ∀ func, functions.find? found = some func → FuncKept func (change func)) :
    FunctionsKept functions (BinaryView.modifyFirst found change functions) := by
  induction functions with
  | nil => exact .refl []
  | cons head rest ih =>
    unfold BinaryView.modifyFirst
    by_cases here : found head = true
    · rw [if_pos here]
      intro i func held
      cases i with
      | zero =>
        cases held
        exact ⟨change head, rfl, keeps head (List.find?_cons_of_pos here)⟩
      | succ i => exact ⟨func, held, .refl func⟩
    · rw [if_neg here]
      intro i func held
      cases i with
      | zero => exact ⟨func, held, .refl func⟩
      | succ i => exact ih (fun other first => keeps other ((List.find?_cons_of_neg here).trans first)) i func held

/-- Calls that set neither start nor comment. -/
theorem FunctionsKept.modifyFunctionAt {change : BNFunction → BNFunction}
    (keeps : ∀ func, FuncKept func (change func)) (view : BinaryView) (addr : UInt64) :
    FunctionsKept view.functions (view.modifyFunctionAt addr change).functions :=
  .modifyFirst fun func _ => keeps func

/-- What every step keeps the whole pass keeps. -/
theorem FunctionsKept.foldl {S A : Type} {step : S → A → S} {read : S → List BNFunction}
    (each : ∀ s item, FunctionsKept (read s) (read (step s item))) (items : List A) (start : S) :
    FunctionsKept (read start) (read (items.foldl step start)) := by
  induction items generalizing start with
  | nil => exact .refl _
  | cons item rest ih => exact (each start item).trans (ih (step start item))

theorem applySymbol_kept (rebase : UInt64) (s : ImportState) (sym : GhidraSymbol) :
    FunctionsKept s.view.functions (applySymbol rebase s sym).view.functions := by
  rw [applySymbol_functions, createMissing]
  split
  · exact .append _ _
  · exact .refl _

/-- A plate goes in only where there is no comment, or the same. -/
theorem applyPlateComment_kept (caddr : UInt64) (comm : GhidraComment) (s : ImportState) :
    FunctionsKept s.view.functions (applyPlateComment caddr comm s).view.functions := by
  unfold applyPlateComment
  split
  · exact .refl _
  · split
    · exact .refl _
    · rename_i func found
      dsimp only
      split
      · rename_i writes
        refine .modifyFirst fun other first => ⟨rfl, fun written => ?_⟩
        rw [BinaryView.functionAt] at found
        cases found.symm.trans first
        rcases writes with empty | same
        · exact absurd empty written
        · exact same.symm
      · exact .refl _

theorem applyComment_kept (rebase : UInt64) (s : ImportState) (comm : GhidraComment) :
    FunctionsKept s.view.functions (applyComment rebase s comm).view.functions := by
  have address (caddr : UInt64) (s : ImportState) :
      (applyAddressComment caddr comm s).view.functions = s.view.functions := by rw [applyAddressComment_frame]
  have plate := applyPlateComment_kept (comm.addr + rebase) comm
    (applyAddressComment (comm.addr + rebase) comm
      { s with result := recordCommentKey (comm.addr + rebase) comm s.result })
  rw [address] at plate
  exact plate

theorem tagFunction_kept (flag : Bool) (tagType : String) (addr : UInt64) (view : BinaryView) :
    FunctionsKept view.functions (tagFunction flag tagType addr view).functions := by
  unfold tagFunction
  split
  · have listed : (getOrCreateTagType view tagType).functions = view.functions := by rw [getOrCreateTagType_frame]
    rw [← listed]
    refine .modifyFunctionAt (fun func => ?_) _ addr
    exact ⟨rfl, fun _ => rfl⟩
  · exact .refl _

theorem applyFuncFlags_kept (s : ImportState) (ff : GhidraFuncFlags) :
    FunctionsKept s.view.functions (applyFuncFlags s ff).view.functions := by
  unfold applyFuncFlags
  split
  · exact .refl _
  · split
    · exact .refl _
    · exact (tagFunction_kept _ _ _ _).trans ((tagFunction_kept _ _ _ _).trans (tagFunction_kept _ _ _ _))

theorem applyEquate_kept (rebase : UInt64) (view : BinaryView) (eq : GhidraEquate) :
    FunctionsKept view.functions (applyEquate rebase view eq).functions := by
  have bound (v : BinaryView) (ref : GhidraEquateRef) :
      FunctionsKept v.functions (bindEquate rebase eq v ref).functions := by
    refine .map (fun func => ?_) v.functions
    split
    · exact ⟨rfl, fun _ => rfl⟩
    · exact .refl func
  unfold applyEquate
  split
  · exact .refl _
  · dsimp only
    split
    · exact .refl _
    · exact .foldl bound eq.refs (view.defineType _ _ _)

theorem applyParameter_kept (rebase : UInt64) (view : BinaryView) (param : GhidraParameter) :
    FunctionsKept view.functions (applyParameter rebase view param).functions := by
  have named (addr : UInt64) (var : Variable) (current : Option BNType) :
      FunctionsKept view.functions (applyVariable view addr var current param).functions := by
    refine .modifyFunctionAt (fun func => ?_) view addr
    exact ⟨rfl, fun _ => rfl⟩
  unfold applyParameter
  dsimp only
  repeat' split
  all_goals first | exact named _ _ _ | exact .refl _

theorem applyFuncSig_kept (keyToAddr : Table Int64 UInt64) (view : BinaryView) (sig : GhidraFuncSig) :
    FunctionsKept view.functions (applyFuncSig keyToAddr view sig).functions := by
  have convention (addr : UInt64) (name : String) (v : BinaryView) :
      FunctionsKept v.functions (applyConvention addr name v).functions := by
    unfold applyConvention
    split
    · exact .refl _
    · split
      · refine .modifyFunctionAt (fun func => ?_) v addr
        exact ⟨rfl, fun _ => rfl⟩
      · exact .refl _
  have returned (addr : UInt64) (name : String) (v : BinaryView) :
      FunctionsKept v.functions (applyReturnType addr name v).functions := by
    unfold applyReturnType
    split
    · exact .refl _
    · split
      · exact .refl _
      · refine .modifyFunctionAt (fun func => ?_) v addr
        exact ⟨rfl, fun _ => rfl⟩
  unfold applyFuncSig
  split
  · exact .refl _
  · exact (convention _ _ _).trans (returned _ _ _)

/-- No pass of the import overwrites the comment of a function. -/
theorem applyToView_functions_kept (view : BinaryView) (data : GhidraDbExport) :
    FunctionsKept view.functions (applyToView view data).1.functions := by
  have symbols : FunctionsKept view.functions (afterSymbols view data).view.functions := by
    rw [← afterBlocks_functions view data]
    exact @FunctionsKept.foldl ImportState GhidraSymbol _ (fun s => s.view.functions) (applySymbol_kept _)
      data.symbols _
  have comments : FunctionsKept view.functions (afterComments view data).view.functions :=
    symbols.trans (@FunctionsKept.foldl ImportState GhidraComment _ (fun s => s.view.functions)
      (applyComment_kept _) data.comments _)
  have flags : FunctionsKept view.functions (applyMapped view data).view.functions :=
    comments.trans (@FunctionsKept.foldl ImportState GhidraFuncFlags _ (fun s => s.view.functions)
      applyFuncFlags_kept data.funcFlags _)
  have equates := flags.trans (FunctionsKept.foldl (applyEquate_kept (rebaseOf view data)) data.equates _)
  have bookmarks (v : BinaryView) :
      (data.bookmarks.foldl (applyBookmark (rebaseOf view data)) v).functions = v.functions :=
    Fold.foldl_keeps (fun v bm => by rw [applyBookmark_frame]) data.bookmarks v
  have marked : FunctionsKept view.functions
      (data.bookmarks.foldl (applyBookmark (rebaseOf view data))
        (data.equates.foldl (applyEquate (rebaseOf view data)) (applyMapped view data).view)).functions := by
    rw [bookmarks]
    exact equates
  have parameters := marked.trans (FunctionsKept.foldl (applyParameter_kept (rebaseOf view data)) data.parameters _)
  have typed : FunctionsKept view.functions (afterItems view data).functions := by
    rw [afterItems_frame, afterTypes_frame]
    exact parameters
  exact typed.trans (FunctionsKept.foldl (applyFuncSig_kept (applyMapped view data).keyToAddr) data.funcSigs _)

/-! ## Exactly the preserved work is collected -/

section
variable (view : BinaryView) (data : GhidraDbExport)

/-- A name of the view that the import may not replace. -/
def PreservedName (addr : UInt64) (name : String) : Prop :=
  view.shownName addr = some name ∧ isAutoGenName name = false

/-- The import leaves the user's names and comments, takes the last record as their
baseline, and a following collection finds exactly those that differ from it. -/
structure Preserves (repo folder item : String) : Prop where
  names : ∀ addr name, PreservedName view addr name → (applyToView view data).1.shownName addr = some name
  comments : ∀ addr, view.getCommentForAddress addr ≠ "" →
    (applyToView view data).1.getCommentForAddress addr = view.getCommentForAddress addr
  functions : FunctionsKept view.functions (applyToView view data).1.functions
  nameBaseline : ∀ addr name, PreservedName view addr name →
    (applyToView view data).2.addrToOriginalName.lookup addr =
      (namesAt (rebaseOf view data) data.symbols addr).getLast?
  commentBaseline : ∀ addr, view.getCommentForAddress addr ≠ "" →
    (applyToView view data).2.addrToOriginalComment.lookup addr =
      (textsAt (rebaseOf view data) data.comments addr).getLast?
  renames : ∀ addr, (∃ r ∈ (untouchedPreview view data repo folder item).renames, r.addr = addr) ↔
    ∃ name last, PreservedName view addr name ∧
      (namesAt (rebaseOf view data) data.symbols addr).getLast? = some last ∧ name ≠ last
  addressComments : ∀ addr,
    (∃ c ∈ collectAddressComments (store (applyToView view data).2 repo folder item) (applyToView view data).1,
      c.addr = addr) ↔
      view.getCommentForAddress addr ≠ "" ∧
        view.getCommentForAddress addr ≠ (textsAt (rebaseOf view data) data.comments addr).getLast?.getD ""

/-- At every address where the user chose nothing, the records agree on what they
put there. -/
structure RecordsAgree : Prop where
  /-- A symbol without a name stays without one. -/
  nameless : ∀ addr, view.shownName addr = some "" →
    (namesAt (rebaseOf view data) data.symbols addr).find? isChosenName = none ∧
      (namesAt (rebaseOf view data) data.symbols addr).getLast?.getD "" = ""
  /-- Without a preserved name, the first chosen name of the records is the last record's. -/
  names : ∀ addr, (∀ name, ¬PreservedName view addr name) →
    ∀ name, (namesAt (rebaseOf view data) data.symbols addr).find? isChosenName = some name →
      (namesAt (rebaseOf view data) data.symbols addr).getLast? = some name
  /-- Without a comment, the first text of the records is the last one. -/
  texts : ∀ addr, view.getCommentForAddress addr = "" →
    (textsAt (rebaseOf view data) data.comments addr).head? =
      (textsAt (rebaseOf view data) data.comments addr).getLast?

variable {view data}

theorem preserved_iff_chosen {addr : UInt64} {name : String} (named : name ≠ "") :
    PreservedName view addr name ↔ view.shownName addr = some name ∧ isChosenName name = true := by
  simp [PreservedName, isChosenName, named]

/-- A preserved name stays, unless it is empty and the records bring another one. -/
theorem names_preserved_iff :
    (∀ addr name, PreservedName view addr name → (applyToView view data).1.shownName addr = some name) ↔
      ∀ addr, view.shownName addr = some "" →
        (namesAt (rebaseOf view data) data.symbols addr).find? isChosenName = none ∧
          (namesAt (rebaseOf view data) data.symbols addr).getLast?.getD "" = "" := by
  have nameless (addr : UInt64) (shown : view.shownName addr = some "") :
      (applyToView view data).1.shownName addr = some "" ↔
        (namesAt (rebaseOf view data) data.symbols addr).find? isChosenName = none ∧
          (namesAt (rebaseOf view data) data.symbols addr).getLast?.getD "" = "" := by
    have plain : ¬isChosenName "" = true := by simp [isChosenName]
    rw [applyToView_shownName, shown, Settle.foldl_write, Option.toList_some, List.singleton_append,
      List.find?_cons_of_neg plain]
    cases found : (namesAt (rebaseOf view data) data.symbols addr).find? isChosenName with
    | none => cases (namesAt (rebaseOf view data) data.symbols addr).getLast? <;> simp
    | some name =>
      have named : name ≠ "" := fun empty => plain (empty ▸ List.find?_some found)
      simp [named]
  constructor
  · intro kept addr shown
    have auto : isAutoGenName "" = false := by decide
    exact (nameless addr shown).mp (kept addr "" ⟨shown, auto⟩)
  · intro empty addr name preserved
    by_cases named : name = ""
    · subst named
      exact (nameless addr preserved.1).mpr (empty addr preserved.1)
    · obtain ⟨shown, chosen⟩ := (preserved_iff_chosen named).mp preserved
      rw [applyToView_shownName, shown, Settle.foldl_write_of_settled chosen]

/-- Where a chosen name is shown, the records agree with it exactly if the last one has it. -/
theorem lastNameShown_of_chosen {addr : UInt64} {name : String} (shown : view.shownName addr = some name)
    (chosen : isChosenName name = true) :
    LastNameShown view data addr ↔ (namesAt (rebaseOf view data) data.symbols addr).getLast? = some name := by
  rw [LastNameShown, shown, Option.toList_some, List.singleton_append, List.find?_cons_of_pos chosen]
  simp

/-- Elsewhere the view's name does not count. -/
theorem lastNameShown_of_plain {addr : UInt64}
    (plain : ∀ name, view.shownName addr = some name → isChosenName name = false) :
    LastNameShown view data addr ↔
      ∀ name, (namesAt (rebaseOf view data) data.symbols addr).find? isChosenName = some name →
        (namesAt (rebaseOf view data) data.symbols addr).getLast? = some name := by
  rw [LastNameShown, List.find?_append]
  have none : (view.shownName addr).toList.find? isChosenName = none := by
    refine List.find?_eq_none.mpr fun name held => ?_
    rw [plain name (Option.mem_toList.mp held)]
    exact Bool.false_ne_true
  rw [none, Option.none_or]

/-- What is recorded somewhere has a last record. -/
theorem recorded_iff {addr : UInt64} :
    (∃ sym ∈ data.symbols, sym.addr + rebaseOf view data = addr) ↔
      ∃ last, (namesAt (rebaseOf view data) data.symbols addr).getLast? = some last := by
  rw [← namesAt_ne_nil, ← Option.isSome_iff_exists, List.getLast?_isSome]

theorem preserved_unique {addr : UInt64} {name other : String} (one : PreservedName view addr name)
    (two : PreservedName view addr other) : name = other := by
  have same := one.1.symm.trans two.1
  exact Option.some.inj same

variable {repo folder item : String}

/-- Given that the names stay, exactly the preserved ones that differ are renamed if
and only if the records agree elsewhere. -/
theorem renames_exact_iff (imported : item ≠ "")
    (nameless : ∀ addr, view.shownName addr = some "" →
      (namesAt (rebaseOf view data) data.symbols addr).find? isChosenName = none ∧
        (namesAt (rebaseOf view data) data.symbols addr).getLast?.getD "" = "") :
    (∀ addr, (∃ r ∈ (untouchedPreview view data repo folder item).renames, r.addr = addr) ↔
      ∃ name last, PreservedName view addr name ∧
        (namesAt (rebaseOf view data) data.symbols addr).getLast? = some last ∧ name ≠ last) ↔
      ∀ addr, (∀ name, ¬PreservedName view addr name) →
        ∀ name, (namesAt (rebaseOf view data) data.symbols addr).find? isChosenName = some name →
          (namesAt (rebaseOf view data) data.symbols addr).getLast? = some name := by
  have renamed (addr : UInt64) :
      (∃ r ∈ (untouchedPreview view data repo folder item).renames, r.addr = addr) ↔
        (∃ last, (namesAt (rebaseOf view data) data.symbols addr).getLast? = some last) ∧
          ¬LastNameShown view data addr := by
    rw [untouchedPreview, BaselineMoves.collectCheckinChanges_of_imported imported, ← recorded_iff]
    exact exists_imported_rename_iff view data repo folder item addr
  refine forall_congr' fun addr => ?_
  rw [renamed]
  by_cases preserved : ∃ name, PreservedName view addr name
  · obtain ⟨name, kept⟩ := preserved
    refine iff_of_true ?_ fun none => absurd kept (none name)
    have only : (∃ other last, PreservedName view addr other ∧
        (namesAt (rebaseOf view data) data.symbols addr).getLast? = some last ∧ other ≠ last) ↔
        ∃ last, (namesAt (rebaseOf view data) data.symbols addr).getLast? = some last ∧ name ≠ last := by
      constructor
      · rintro ⟨other, last, same, ends, differs⟩
        exact ⟨last, ends, preserved_unique same kept ▸ differs⟩
      · rintro ⟨last, ends, differs⟩
        exact ⟨name, last, kept, ends, differs⟩
    rw [only]
    by_cases named : name = ""
    · subst named
      obtain ⟨unchosen, empty⟩ := nameless addr kept.1
      have plain (other : String) (shown : view.shownName addr = some other) : isChosenName other = false := by
        cases Option.some.inj (kept.1.symm.trans shown)
        rfl
      have agrees : LastNameShown view data addr :=
        (lastNameShown_of_plain plain).mpr fun other found => by rw [unchosen] at found; cases found
      refine iff_of_false (fun moved => moved.2 agrees) ?_
      rintro ⟨last, ends, differs⟩
      rw [ends, Option.getD_some] at empty
      exact differs empty.symm
    · obtain ⟨shown, chosen⟩ := (preserved_iff_chosen named).mp kept
      rw [lastNameShown_of_chosen shown chosen]
      cases (namesAt (rebaseOf view data) data.symbols addr).getLast? with
      | none => simp
      | some last => simp [eq_comm]
  · have unpreserved := not_exists.mp preserved
    have plain (name : String) (shown : view.shownName addr = some name) : isChosenName name = false := by
      by_contra chosen
      have held : isChosenName name = true := by simpa using chosen
      have named : name ≠ "" := fun empty => by simp [empty, isChosenName] at held
      exact unpreserved name ((preserved_iff_chosen named).mpr ⟨shown, held⟩)
    rw [lastNameShown_of_plain plain]
    constructor
    · intro none _ name found
      have recorded : ∃ last, (namesAt (rebaseOf view data) data.symbols addr).getLast? = some last := by
        refine Option.isSome_iff_exists.mp (List.getLast?_isSome.mpr ?_)
        exact List.ne_nil_of_mem (List.mem_of_find?_eq_some found)
      by_contra other
      obtain ⟨kept, _, held, _⟩ := none.mp ⟨recorded, fun agree => other (agree name found)⟩
      exact unpreserved kept held
    · intro agree
      refine iff_of_false (fun moved => moved.2 (agree unpreserved)) ?_
      rintro ⟨name, _, held, _⟩
      exact unpreserved name held

/-- A comment is collected where the user wrote one that differs from the last text,
and nowhere else if and only if the records agree. -/
theorem addressComments_exact_iff :
    (∀ addr,
      (∃ c ∈ collectAddressComments (store (applyToView view data).2 repo folder item) (applyToView view data).1,
        c.addr = addr) ↔
        view.getCommentForAddress addr ≠ "" ∧
          view.getCommentForAddress addr ≠ (textsAt (rebaseOf view data) data.comments addr).getLast?.getD "") ↔
      ∀ addr, view.getCommentForAddress addr = "" →
        (textsAt (rebaseOf view data) data.comments addr).head? =
          (textsAt (rebaseOf view data) data.comments addr).getLast? := by
  refine forall_congr' fun addr => ?_
  have baseline : textAt (store (applyToView view data).2 repo folder item).addrToOriginalComment addr =
      (textsAt (rebaseOf view data) data.comments addr).getLast?.getD "" := by
    rw [← lookup_addrToOriginalComment view data addr]
    rfl
  have queued :
      (∃ c ∈ collectAddressComments (store (applyToView view data).2 repo folder item) (applyToView view data).1,
        c.addr = addr) ↔
        (applyToView view data).1.getCommentForAddress addr ≠ "" ∧
          (applyToView view data).1.getCommentForAddress addr ≠
            (textsAt (rebaseOf view data) data.comments addr).getLast?.getD "" := by
    constructor
    · rintro ⟨c, member, rfl⟩
      obtain ⟨_, edit⟩ := CommentEdits.mem_collectAddressComments.mp member
      obtain ⟨shown, edited⟩ := CommentEdits.addressEdit_eq_some.mp edit
      rw [← baseline, shown]
      exact edited
    · intro edited
      rw [← baseline] at edited
      refine ⟨commentChange (store (applyToView view data).2 repo folder item) addr
        ((applyToView view data).1.getCommentForAddress addr), ?_, rfl⟩
      refine CommentEdits.mem_collectAddressComments.mpr ⟨rfl, ?_⟩
      exact CommentEdits.addressEdit_eq_some.mpr ⟨rfl, edited⟩
  rw [queued, applyToView_getCommentForAddress]
  by_cases empty : view.getCommentForAddress addr = ""
  · rw [if_pos empty, empty]
    simp only [ne_eq, not_true_eq_false, false_and, iff_false, true_imp_iff]
    have written {text : String} (listed : text ∈ textsAt (rebaseOf view data) data.comments addr) :=
      textsAt_written listed
    generalize textsAt (rebaseOf view data) data.comments addr = texts at written ⊢
    cases texts with
    | nil => simp
    | cons first rest =>
      have shown := written List.mem_cons_self
      rw [List.head?_cons, List.getLast?_cons]
      simp [shown]
  · simp [empty]

end

/-- The view of a user who named a function. -/
def renamedView : BinaryView := { symbols := [⟨.function, "my_main", 0x401000⟩] }

end GhidraBridge.ImportPreserves
