import GhidraBridge.WritebackMaps
import GhidraBridge.BaselineMoves
import GhidraBridge.Lib.Settle

/-! The symbol pass of the import, address by address. The name shown at an
address is a cell: records are written into it until it holds a name somebody
chose, be it the user's or an earlier record's. The baseline has no such rule,
it keeps the name and the key of the last record. -/
namespace GhidraBridge

namespace BinaryView
variable {view : BinaryView}

theorem getSymbolByAddress_defineUserSymbol (sym : BNSymbol) (addr : UInt64) :
    (view.defineUserSymbol sym).getSymbolByAddress addr =
      if sym.addr = addr then some sym else view.getSymbolByAddress addr := by
  unfold getSymbolByAddress defineUserSymbol
  rw [List.find?_cons]
  by_cases here : sym.addr = addr
  · simp [here]
  · have kept (other : BNSymbol) :
        decide (decide (other ≠ sym) = true ∧ decide (other.addr = addr) = true) = decide (other.addr = addr) := by
      by_cases there : other.addr = addr
      · have apart : other ≠ sym := fun same => here (same ▸ there)
        simp [there, apart]
      · simp [there]
    rw [List.find?_filter]
    simp only [here, decide_false, if_false]
    exact congrArg (view.symbols.find? ·) (funext kept)

/-- The name the view shows at an address. -/
def shownName (view : BinaryView) (addr : UInt64) : Option String :=
  (view.getSymbolByAddress addr).map BNSymbol.name

end BinaryView

namespace SymbolImport
open Lib SyncEngine CheckinState WritebackMaps

/-- A name the import does not replace by another one. -/
def isChosenName (name : String) : Bool := name ≠ "" && !isAutoGenName name

/-- The names of the records at an address of the view, in order. -/
def namesAt (rebase : UInt64) (symbols : List GhidraSymbol) (addr : UInt64) : List String :=
  (symbols.filter fun sym => sym.addr + rebase = addr).map GhidraSymbol.name

theorem appliesName_iff {view : BinaryView} {addr : UInt64} {name : String} :
    appliesName view addr name = true ↔
      ∀ shown, view.shownName addr = some shown → isChosenName shown = true → shown = name := by
  unfold appliesName BinaryView.shownName isChosenName
  cases view.getSymbolByAddress addr with
  | none => simp
  | some existing =>
    by_cases empty : existing.name = "" <;> by_cases auto : isAutoGenName existing.name = true <;>
      simp [empty, auto]

/-- A record is written into the cell of its address. -/
theorem applySymbol_shownName (rebase : UInt64) (s : ImportState) (sym : GhidraSymbol) (addr : UInt64) :
    (applySymbol rebase s sym).view.shownName addr =
      if sym.addr + rebase = addr then Settle.write isChosenName (s.view.shownName addr) sym.name
      else s.view.shownName addr := by
  have created (view : BinaryView) : (createMissing rebase view sym).shownName addr = view.shownName addr := by
    rw [createMissing_eq]
    rfl
  rw [applySymbol_view, created, nameSymbol]
  by_cases here : sym.addr + rebase = addr
  · rw [if_pos here, here]
    split
    · rename_i applies
      have written : Settle.write isChosenName (s.view.shownName addr) sym.name = some sym.name := by
        cases held : s.view.shownName addr with
        | none => rfl
        | some shown =>
          rw [Settle.write]
          split
          · rename_i chosen
            rw [appliesName_iff.mp applies shown held chosen]
          · rfl
      rw [written, BinaryView.shownName, BinaryView.getSymbolByAddress_defineUserSymbol, if_pos rfl]
      rfl
    · rename_i kept
      cases held : s.view.shownName addr with
      | none => exact absurd (appliesName_iff.mpr (by simp [held])) kept
      | some shown =>
        have chosen : isChosenName shown = true := by
          by_contra plain
          exact kept (appliesName_iff.mpr (by simp [held, plain]))
        rw [Settle.write, if_pos chosen]
  · rw [if_neg here]
    split
    · rw [BinaryView.shownName, BinaryView.getSymbolByAddress_defineUserSymbol, if_neg here]
      rfl
    · rfl

theorem foldl_applySymbol_shownName (rebase : UInt64) (symbols : List GhidraSymbol) (s : ImportState)
    (addr : UInt64) :
    (symbols.foldl (applySymbol rebase) s).view.shownName addr =
      (namesAt rebase symbols addr).foldl (Settle.write isChosenName) (s.view.shownName addr) := by
  induction symbols generalizing s with
  | nil => rfl
  | cons sym rest ih =>
    rw [List.foldl_cons, ih, applySymbol_shownName, namesAt, namesAt]
    by_cases here : sym.addr + rebase = addr <;> simp [here]

section
variable (view : BinaryView) (data : GhidraDbExport)

/-- What the import leaves at an address: the first chosen name among the view's
and the records', else the last record's. -/
theorem applyToView_shownName (addr : UInt64) :
    (applyToView view data).1.shownName addr =
      (namesAt (rebaseOf view data) data.symbols addr).foldl (Settle.write isChosenName) (view.shownName addr) := by
  have start : (afterBlocks view data).view.shownName addr = view.shownName addr := by
    unfold BinaryView.shownName BinaryView.getSymbolByAddress
    rw [afterBlocks_symbols]
  have later : (applyToView view data).1.shownName addr = (afterSymbols view data).view.shownName addr := by
    unfold BinaryView.shownName BinaryView.getSymbolByAddress
    rw [applyToView_symbols]
  rw [later, afterSymbols, foldl_applySymbol_shownName, start]

theorem mapComment_frame (rebase : UInt64) (result : SyncResult) (comm : GhidraComment) :
    mapComment rebase result comm =
      { result with
        addrToCommentKey := (mapComment rebase result comm).addrToCommentKey
        addrToCommentField := (mapComment rebase result comm).addrToCommentField
        addrToOriginalComment := (mapComment rebase result comm).addrToOriginalComment
        addrToOriginalFuncComment := (mapComment rebase result comm).addrToOriginalFuncComment } := by
  rw [mapComment_eq, mapPlate, mapAddressComment, recordCommentKey]
  repeat' split
  all_goals rfl

theorem foldl_mapSymbol_addrToKey (rebase : UInt64) (symbols : List GhidraSymbol) (result : SyncResult) :
    (symbols.foldl (mapSymbol rebase) result).addrToKey =
      result.addrToKey.writeAll (fun sym => sym.addr + rebase) GhidraSymbol.key symbols := by
  induction symbols generalizing result with
  | nil => rfl
  | cons sym rest ih => exact ih _

theorem foldl_mapSymbol_addrToOriginalName (rebase : UInt64) (symbols : List GhidraSymbol) (result : SyncResult) :
    (symbols.foldl (mapSymbol rebase) result).addrToOriginalName =
      result.addrToOriginalName.writeAll (fun sym => sym.addr + rebase) GhidraSymbol.name symbols := by
  induction symbols generalizing result with
  | nil => rfl
  | cons sym rest ih => exact ih _

/-- The keys recorded by a restore, one per record and address. -/
theorem buildWritebackMaps_addrToKey :
    (buildWritebackMaps view data).addrToKey =
      Table.writeAll ∅ (fun sym => sym.addr + rebaseOf view data) GhidraSymbol.key data.symbols := by
  have commented (result : SyncResult) :
      (data.comments.foldl (mapComment (rebaseOf view data)) result).addrToKey = result.addrToKey :=
    Fold.foldl_keeps (fun result comm => by rw [mapComment_frame]) data.comments result
  refine (commented _).trans ?_
  exact foldl_mapSymbol_addrToKey _ _ _

theorem buildWritebackMaps_addrToOriginalName :
    (buildWritebackMaps view data).addrToOriginalName =
      Table.writeAll ∅ (fun sym => sym.addr + rebaseOf view data) GhidraSymbol.name data.symbols := by
  have commented (result : SyncResult) :
      (data.comments.foldl (mapComment (rebaseOf view data)) result).addrToOriginalName =
        result.addrToOriginalName :=
    Fold.foldl_keeps (fun result comm => by rw [mapComment_frame]) data.comments result
  refine (commented _).trans ?_
  exact foldl_mapSymbol_addrToOriginalName _ _ _

/-- The import records the same keys and names. -/
theorem applyToView_addrToKey :
    (applyToView view data).2.addrToKey =
      Table.writeAll ∅ (fun sym => sym.addr + rebaseOf view data) GhidraSymbol.key data.symbols := by
  have recorded := congrArg SyncResult.addrToKey (applyToView_baseline view data)
  exact recorded.trans (buildWritebackMaps_addrToKey view _)

theorem applyToView_addrToOriginalName :
    (applyToView view data).2.addrToOriginalName =
      Table.writeAll ∅ (fun sym => sym.addr + rebaseOf view data) GhidraSymbol.name data.symbols := by
  have recorded := congrArg SyncResult.addrToOriginalName (applyToView_baseline view data)
  exact recorded.trans (buildWritebackMaps_addrToOriginalName view _)

theorem lookup_addrToOriginalName (addr : UInt64) :
    (applyToView view data).2.addrToOriginalName.lookup addr =
      (namesAt (rebaseOf view data) data.symbols addr).getLast? := by
  rw [applyToView_addrToOriginalName, Table.lookup_writeAll_eq_getLast?, AList.lookup_empty, Option.or_none]
  rfl

/-- The key of the last record at an address. -/
def lastKey (addr : UInt64) : Option Int64 :=
  ((data.symbols.filter fun sym => sym.addr = addr).map GhidraSymbol.key).getLast?

theorem lookup_addrToKey (addr : UInt64) :
    (applyToView view data).2.addrToKey.lookup (addr + rebaseOf view data) = lastKey data addr := by
  rw [applyToView_addrToKey, Table.lookup_writeAll_eq_getLast?, AList.lookup_empty, Option.or_none]
  simp only [UInt64.add_left_inj]
  rfl

theorem mem_addrToKey {addr : UInt64} :
    addr ∈ (applyToView view data).2.addrToKey ↔ ∃ sym ∈ data.symbols, sym.addr + rebaseOf view data = addr := by
  rw [← AList.lookup_isSome, applyToView_addrToKey, Table.lookup_writeAll_eq_getLast?, AList.lookup_empty,
    Option.or_none, List.getLast?_isSome]
  simp

/-- If any name at an address is chosen, the view's or a record's, the first such
name is also the last record's. -/
def LastNameShown (addr : UInt64) : Prop :=
  ∀ name, ((view.shownName addr).toList ++ namesAt (rebaseOf view data) data.symbols addr).find? isChosenName =
    some name → (namesAt (rebaseOf view data) data.symbols addr).getLast? = some name

variable {view data}

/-- Where there are records, the import shows the baseline's name exactly then. -/
theorem shown_eq_baseline_iff {addr : UInt64} (recorded : namesAt (rebaseOf view data) data.symbols addr ≠ []) :
    (applyToView view data).1.shownName addr = (applyToView view data).2.addrToOriginalName.lookup addr ↔
      LastNameShown view data addr := by
  rw [applyToView_shownName, lookup_addrToOriginalName, Settle.foldl_write, LastNameShown]
  cases ((view.shownName addr).toList ++ namesAt (rebaseOf view data) data.symbols addr).find? isChosenName with
  | none =>
    obtain ⟨last, ends⟩ := Option.isSome_iff_exists.mp (List.getLast?_isSome.mpr recorded)
    simp [ends]
  | some name => simp [eq_comm]

theorem namesAt_ne_nil {rebase addr : UInt64} {symbols : List GhidraSymbol} :
    namesAt rebase symbols addr ≠ [] ↔ ∃ sym ∈ symbols, sym.addr + rebase = addr := by
  simp [namesAt, List.filter_eq_nil_iff]

end

section Collected
variable {state : CheckinState} {view : BinaryView}

/-- A rename is queued where a keyed address shows another name than its baseline. -/
theorem exists_rename_iff {addr : UInt64} :
    (∃ r ∈ collectRenames state view, r.addr = addr) ↔
      addr ∈ state.addrToKey ∧
        ∃ name, view.shownName addr = some name ∧ name ≠ textAt state.addrToOriginalName addr := by
  constructor
  · rintro ⟨r, member, rfl⟩
    obtain ⟨held, made⟩ := BaselineMoves.mem_collectRenames.mp member
    obtain ⟨sym, found, moved, _⟩ := BaselineMoves.renameAt_eq_some.mp made
    refine ⟨AList.lookup_isSome.mp (by rw [held, Option.isSome_some]), sym.name, ?_, moved⟩
    rw [BinaryView.shownName, found, Option.map_some]
  · rintro ⟨keyed, name, shown, moved⟩
    obtain ⟨key, held⟩ := Option.isSome_iff_exists.mp (AList.lookup_isSome.mpr keyed)
    obtain ⟨sym, found, rfl⟩ := Option.map_eq_some_iff.mp shown
    refine ⟨⟨key, addr, textAt state.addrToOriginalName addr, sym.name⟩, ?_, rfl⟩
    exact BaselineMoves.mem_collectRenames.mpr
      ⟨held, BaselineMoves.renameAt_eq_some.mpr ⟨sym, found, moved, rfl⟩⟩

end Collected

/-- After an untouched import a rename is queued exactly where there are records
and the last record's name is not the one shown. -/
theorem exists_imported_rename_iff (view : BinaryView) (data : GhidraDbExport) (repo folder item : String)
    (addr : UInt64) :
    (∃ r ∈ collectRenames (store (applyToView view data).2 repo folder item) (applyToView view data).1,
      r.addr = addr) ↔
      (∃ sym ∈ data.symbols, sym.addr + rebaseOf view data = addr) ∧ ¬LastNameShown view data addr := by
  refine exists_rename_iff.trans ?_
  refine (and_congr (mem_addrToKey view data) Iff.rfl).trans ?_
  refine and_congr_right fun recorded => ?_
  have listed := namesAt_ne_nil.mpr recorded
  obtain ⟨last, ends⟩ := Option.isSome_iff_exists.mp (List.getLast?_isSome.mpr listed)
  have baseline := (lookup_addrToOriginalName view data addr).trans ends
  have shows : ∃ name, (applyToView view data).1.shownName addr = some name := by
    refine Option.isSome_iff_exists.mp ?_
    rw [applyToView_shownName, Settle.foldl_write, ends]
    simp
  obtain ⟨name, shown⟩ := shows
  rw [← shown_eq_baseline_iff listed, shown, baseline]
  have text : textAt (store (applyToView view data).2 repo folder item).addrToOriginalName addr = last := by
    change ((applyToView view data).2.addrToOriginalName.lookup addr).getD "" = last
    rw [baseline, Option.getD_some]
  rw [text]
  simp

/-- After an untouched import, no rename is collected and every function's address
has its key, exactly when at each address the first chosen name is the last
record's, and the last record at a function's address has the function's key. -/
theorem untouched_import_names_iff (view : BinaryView) (data : GhidraDbExport) (repo folder item : String) :
    ((untouchedPreview view data repo folder item).renames = [] ∧
      ∀ sym ∈ data.symbols, sym.type = .function →
        (store (applyToView view data).2 repo folder item).addrToKey.lookup (sym.addr + rebaseOf view data) =
          some sym.key) ↔
      (item ≠ "" → ∀ sym ∈ data.symbols, LastNameShown view data (sym.addr + rebaseOf view data)) ∧
        ∀ sym ∈ data.symbols, sym.type = .function → lastKey data sym.addr = some sym.key := by
  refine and_congr ?_ ?_
  · by_cases missing : item = ""
    · have none : (untouchedPreview view data repo folder item).renames = [] := by
        rw [untouchedPreview, collectCheckinChanges, if_pos]
        exact missing
      exact iff_of_true none fun named => absurd missing named
    · rw [untouchedPreview, BaselineMoves.collectCheckinChanges_of_imported missing, List.eq_nil_iff_forall_not_mem]
      have renamed := exists_imported_rename_iff view data repo folder item
      constructor
      · intro empty _ sym member
        by_contra other
        obtain ⟨r, queued, _⟩ := (renamed _).mpr ⟨⟨sym, member, rfl⟩, other⟩
        exact empty r queued
      · intro last r queued
        obtain ⟨⟨sym, member, same⟩, other⟩ := (renamed r.addr).mp ⟨r, queued, rfl⟩
        exact other (same ▸ last missing sym member)
  · refine forall_congr' fun sym => forall_congr' fun _ => forall_congr' fun _ => ?_
    rw [← lookup_addrToKey view data sym.addr]
    rfl

/-- A function and a label at one address. -/
def twoNames : GhidraDbExport :=
  { symbols := [
      { key := 1, name := "main", addr := 0x401000, type := .function },
      { key := 2, name := "entry", addr := 0x401000 }] }

/-- Into a view without symbols the function's name is applied and the label's is
recorded: a rename of the label is collected that nobody made, and the key at the
function's address is the label's. -/
theorem second_name_renamed :
    (∀ addr, ({} : BinaryView).getSymbolByAddress addr = none) ∧
      (untouchedPreview {} twoNames "r" "/" "prog").renames = [⟨2, 0x401000, "entry", "main"⟩] ∧
      (store (applyToView {} twoNames).2 "r" "/" "prog").addrToKey.lookup 0x401000 = some 2 := by
  refine ⟨fun addr => rfl, ?_, ?_⟩
  · decide +kernel
  · decide +kernel

/-! ## Automatic names on the way back -/

/-- No symbol that is sent has a name that nobody chose. -/
def NoAutoNameSent (preview : GhidraCheckinPreview) : Prop :=
  (∀ r ∈ preview.renames, isAutoGeneratedSymbolName r.newName = false) ∧
    ∀ s ∈ preview.newSymbols, isAutoGeneratedSymbolName s.name = false

instance (preview : GhidraCheckinPreview) : Decidable (NoAutoNameSent preview) :=
  inferInstanceAs (Decidable (_ ∧ _))

/-- Every automatic name the view shows at a keyed address is the one recorded there. -/
def AutoNamesRecorded (state : CheckinState) (view : BinaryView) : Prop :=
  ∀ addr ∈ state.addrToKey, ∀ name, view.shownName addr = some name →
    isAutoGeneratedSymbolName name = true → name = textAt state.addrToOriginalName addr

/-- New symbols are filtered. -/
theorem newSymbolFor_chosen {state : CheckinState} {sym : BNSymbol} {s : NewSymbol}
    (made : newSymbolFor state sym = some s) : isAutoGeneratedSymbolName s.name = false := by
  unfold newSymbolFor at made
  split at made
  · cases made
  · split at made
    · cases made
    · rename_i named
      split at made
      · cases made
      · cases made
        exact Bool.eq_false_iff.mpr (not_or.mp named).2

/-- A check-in sends no automatic name exactly when it has nothing to compare
with, or the view shows no automatic name in the place of a recorded one. -/
theorem no_auto_name_sent_iff (state : CheckinState) (view : BinaryView) :
    NoAutoNameSent (state.collectCheckinChanges view) ↔
      state.checkinItem = "" ∨ AutoNamesRecorded state view := by
  by_cases missing : state.checkinItem = ""
  · refine iff_of_true ?_ (.inl missing)
    rw [collectCheckinChanges, if_pos missing]
    exact ⟨fun r member => absurd member List.not_mem_nil, fun s member => absurd member List.not_mem_nil⟩
  · rw [BaselineMoves.collectCheckinChanges_of_imported missing]
    constructor
    · rintro ⟨renames, _⟩
      refine .inr fun addr keyed name shown auto => ?_
      by_contra moved
      obtain ⟨r, member, rfl⟩ := exists_rename_iff.mpr ⟨keyed, name, shown, moved⟩
      obtain ⟨_, made⟩ := BaselineMoves.mem_collectRenames.mp member
      obtain ⟨sym, found, _, same⟩ := BaselineMoves.renameAt_eq_some.mp made
      have sent : r.newName = name := by
        rw [BinaryView.shownName, found, Option.map_some, Option.some.injEq] at shown
        rw [same, ← shown]
      have plain := renames r member
      rw [sent, auto] at plain
      cases plain
    · rintro (empty | recorded)
      · exact absurd empty missing
      · refine ⟨fun r member => ?_, fun s member => ?_⟩
        · obtain ⟨held, made⟩ := BaselineMoves.mem_collectRenames.mp member
          obtain ⟨sym, found, moved, same⟩ := BaselineMoves.renameAt_eq_some.mp made
          rw [same]
          refine Bool.eq_false_iff.mpr fun auto => moved (recorded r.addr ?_ sym.name ?_ auto)
          · exact AList.lookup_isSome.mp (by rw [held, Option.isSome_some])
          · rw [BinaryView.shownName, found, Option.map_some]
        · obtain ⟨_, _, sym, _, made⟩ := BaselineMoves.mem_newSymbolsFrom.mp member
          exact newSymbolFor_chosen made

/-- One named function on the server. -/
def namedExport : GhidraDbExport :=
  { symbols := [{ key := 1, name := "main", addr := 0x401000, type := .function }] }

/-- The same function in a view that was never imported into. -/
def analysedView : BinaryView := { symbols := [⟨.function, "sub_401000", 0x401000⟩] }

/-- With the state restored over that view, the check-in renames the function on
the server to the view's automatic name. -/
theorem restore_sends_auto_name :
    let state := store (buildWritebackMaps analysedView namedExport) "r" "/" "prog"
    (state.collectCheckinChanges analysedView).renames = [⟨1, 0x401000, "main", "sub_401000"⟩] ∧
      isAutoGeneratedSymbolName "sub_401000" = true ∧ ¬NoAutoNameSent (state.collectCheckinChanges analysedView) := by
  decide +kernel

end SymbolImport
end GhidraBridge
