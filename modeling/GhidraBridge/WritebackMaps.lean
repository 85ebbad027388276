import GhidraBridge.ImportFrames

/-! The baselines an import records against those a restore rebuilds. Both walk
the same records and write the same tables, but the import looks at the view
before it records a plate: only where a function starts is there a comment the
plate could be shown as. -/
namespace GhidraBridge

/-- The result less its counters: what a later check-in reads. -/
def SyncResult.baseline (result : SyncResult) : SyncResult :=
  { result with
    symbolsApplied := 0, commentsApplied := 0, flagsApplied := 0, functionsCreated := 0
    sectionsAdded := 0, segmentsAdded := 0, sampleSymbol := "" }

namespace BinaryView
variable {view : BinaryView} {addr probe : UInt64}

/-- A call on a function object moves no function. -/
theorem modifyFirst_starts {found : BNFunction → Bool} {change : BNFunction → BNFunction}
    (kept : ∀ func, (change func).start = func.start) (functions : List BNFunction) :
    (modifyFirst found change functions).map BNFunction.start = functions.map BNFunction.start := by
  induction functions with
  | nil => rfl
  | cons func rest ih =>
    unfold modifyFirst
    split
    · rw [List.map_cons, List.map_cons, kept]
    · rw [List.map_cons, List.map_cons, ih]

theorem functionAt_isSome : (view.functionAt addr).isSome = true ↔ addr ∈ view.functions.map BNFunction.start := by
  rw [functionAt, List.find?_isSome, List.mem_map]
  simp only [decide_eq_true_eq]

theorem functionAt_isSome_congr {other : BinaryView}
    (same : other.functions.map BNFunction.start = view.functions.map BNFunction.start) :
    (other.functionAt addr).isSome = (view.functionAt addr).isSome := by
  rw [Bool.eq_iff_iff, functionAt_isSome, functionAt_isSome, same]

theorem functionAt_createUserFunction :
    ((view.createUserFunction addr).functionAt probe).isSome = true ↔
      (view.functionAt probe).isSome = true ∨ probe = addr := by
  rw [functionAt_isSome, functionAt_isSome, createUserFunction, List.map_append, List.mem_append]
  exact or_congr Iff.rfl List.mem_singleton

end BinaryView

namespace WritebackMaps
open Lib SyncEngine

/-! ## Where functions start -/

theorem afterBlocks_platform (view : BinaryView) (data : GhidraDbExport) :
    (afterBlocks view data).view.hasDefaultPlatform = view.hasDefaultPlatform := by rw [afterBlocks_frame]

/-- With a platform, a function symbol leaves a function at its address. -/
def Creates (view : BinaryView) (sym : GhidraSymbol) : Prop :=
  sym.type = .function ∧ view.hasDefaultPlatform = true

instance (view : BinaryView) (sym : GhidraSymbol) : Decidable (Creates view sym) := inferInstanceAs (Decidable (_ ∧ _))

/-- Ghidra's name at the symbol's address, where the import applies it. -/
def nameSymbol (rebase : UInt64) (view : BinaryView) (sym : GhidraSymbol) : BinaryView :=
  if appliesName view (sym.addr + rebase) sym.name then
    view.defineUserSymbol ⟨symbolType sym.type, sym.name, sym.addr + rebase⟩
  else view

/-- The function at the symbol's address, where the import creates it. -/
def createMissing (rebase : UInt64) (view : BinaryView) (sym : GhidraSymbol) : BinaryView :=
  if Creates view sym ∧ (view.functionAt (sym.addr + rebase)).isNone = true then
    view.createUserFunction (sym.addr + rebase)
  else view

/-- A symbol is named first; its function is looked for in the view that has the name. -/
theorem applySymbol_view (rebase : UInt64) (s : ImportState) (sym : GhidraSymbol) :
    (applySymbol rebase s sym).view = createMissing rebase (nameSymbol rebase s.view sym) sym := by
  unfold createMissing Creates
  simp only [and_assoc]
  rfl

/-- Naming a symbol touches the symbols alone. -/
theorem nameSymbol_eq (rebase : UInt64) (view : BinaryView) (sym : GhidraSymbol) :
    nameSymbol rebase view sym = { view with symbols := (nameSymbol rebase view sym).symbols } := by
  unfold nameSymbol
  split <;> rfl

theorem createMissing_eq (rebase : UInt64) (view : BinaryView) (sym : GhidraSymbol) :
    createMissing rebase view sym = { view with functions := (createMissing rebase view sym).functions } := by
  unfold createMissing
  split <;> rfl

/-- What the functions become does not depend on the symbols. -/
theorem createMissing_symbols (rebase : UInt64) (view : BinaryView) (sym : GhidraSymbol)
    (symbols : List BNSymbol) :
    (createMissing rebase { view with symbols } sym).functions = (createMissing rebase view sym).functions := by
  unfold createMissing Creates BinaryView.functionAt
  dsimp only
  split <;> rfl

theorem applySymbol_functions (rebase : UInt64) (s : ImportState) (sym : GhidraSymbol) :
    (applySymbol rebase s sym).view.functions = (createMissing rebase s.view sym).functions := by
  rw [applySymbol_view, nameSymbol_eq, createMissing_symbols]

theorem applySymbol_functionAt (rebase : UInt64) (s : ImportState) (sym : GhidraSymbol) (addr : UInt64) :
    ((applySymbol rebase s sym).view.functionAt addr).isSome = true ↔
      (s.view.functionAt addr).isSome = true ∨ Creates s.view sym ∧ addr = sym.addr + rebase := by
  rw [BinaryView.functionAt_isSome, applySymbol_functions, ← BinaryView.functionAt_isSome, createMissing]
  split
  · rename_i missing
    rw [BinaryView.functionAt_createUserFunction]
    simp only [missing.1, true_and]
  · rename_i present
    refine ⟨.inl, ?_⟩
    rintro (starts | ⟨creates, rfl⟩)
    · exact starts
    · by_contra missing
      exact present ⟨creates, by simpa using missing⟩

theorem applySymbol_platform (rebase : UInt64) (s : ImportState) (sym : GhidraSymbol) :
    (applySymbol rebase s sym).view.hasDefaultPlatform = s.view.hasDefaultPlatform := by
  rw [applySymbol_frame]

theorem foldl_applySymbol_functionAt (rebase : UInt64) (symbols : List GhidraSymbol) (s : ImportState)
    (addr : UInt64) :
    ((symbols.foldl (applySymbol rebase) s).view.functionAt addr).isSome = true ↔
      (s.view.functionAt addr).isSome = true ∨
        ∃ sym ∈ symbols, Creates s.view sym ∧ addr = sym.addr + rebase := by
  induction symbols generalizing s with
  | nil => simp
  | cons sym rest ih =>
    have platform (other : GhidraSymbol) : Creates (applySymbol rebase s sym).view other ↔ Creates s.view other := by
      unfold Creates
      rw [applySymbol_platform]
    rw [List.foldl_cons, ih, applySymbol_functionAt]
    simp only [platform, List.mem_cons, exists_eq_or_imp]
    exact or_assoc

/-! ## The comment pass -/

/-- The record as the import takes it: without its plate where no function starts. -/
def seenComment (starts : UInt64 → Bool) (rebase : UInt64) (comm : GhidraComment) : GhidraComment :=
  { comm with plate := if starts (comm.addr + rebase) then comm.plate else "" }

theorem applyPlateComment_starts (caddr : UInt64) (comm : GhidraComment) (s : ImportState) :
    (applyPlateComment caddr comm s).view.functions.map BNFunction.start =
      s.view.functions.map BNFunction.start := by
  unfold applyPlateComment
  split
  · rfl
  · split
    · rfl
    · dsimp only
      split
      · refine BinaryView.modifyFirst_starts ?_ s.view.functions
        intro func
        rfl
      · rfl

theorem applyComment_functionAt (rebase : UInt64) (s : ImportState) (comm : GhidraComment) (addr : UInt64) :
    ((applyComment rebase s comm).view.functionAt addr).isSome = (s.view.functionAt addr).isSome := by
  refine BinaryView.functionAt_isSome_congr ?_
  unfold applyComment
  dsimp only
  rw [applyPlateComment_starts, applyAddressComment_frame]

/-- What a restore records of the address comment. -/
def mapAddressComment (caddr : UInt64) (comm : GhidraComment) (result : SyncResult) : SyncResult :=
  if comm.merged = "" then result
  else
    { result with
      addrToCommentField := result.addrToCommentField.set caddr comm.field
      addrToOriginalComment := result.addrToOriginalComment.set caddr comm.merged }

def mapPlate (caddr : UInt64) (plate : String) (result : SyncResult) : SyncResult :=
  if plate = "" then result
  else { result with addrToOriginalFuncComment := result.addrToOriginalFuncComment.set caddr plate }

theorem mapComment_eq (rebase : UInt64) (result : SyncResult) (comm : GhidraComment) :
    mapComment rebase result comm =
      mapPlate (comm.addr + rebase) comm.plate
        (mapAddressComment (comm.addr + rebase) comm (recordCommentKey (comm.addr + rebase) comm result)) := rfl

theorem recordCommentKey_baseline (caddr : UInt64) (comm : GhidraComment) (result : SyncResult) :
    (recordCommentKey caddr comm result).baseline = recordCommentKey caddr comm result.baseline := by
  unfold recordCommentKey
  split <;> rfl

/-- The address comment is recorded as in a restore, whatever the view shows. -/
theorem applyAddressComment_baseline (caddr : UInt64) (comm : GhidraComment) (s : ImportState) :
    (applyAddressComment caddr comm s).result.baseline = mapAddressComment caddr comm s.result.baseline := by
  unfold applyAddressComment mapAddressComment
  dsimp only
  split <;> rfl

/-- The plate is recorded only where a function starts. -/
theorem applyPlateComment_baseline (caddr : UInt64) (comm : GhidraComment) (s : ImportState) :
    (applyPlateComment caddr comm s).result.baseline =
      mapPlate caddr (if (s.view.functionAt caddr).isSome then comm.plate else "") s.result.baseline := by
  unfold applyPlateComment
  split
  · rename_i silent
    simp [silent, mapPlate]
  · rename_i plate
    split
    · rename_i missing
      simp [missing, mapPlate]
    · rename_i func starts
      rw [starts, Option.isSome_some, if_pos rfl, mapPlate, if_neg plate]
      rfl

/-- One record, with the counters left out. -/
theorem applyComment_baseline (rebase : UInt64) (s : ImportState) (comm : GhidraComment) :
    (applyComment rebase s comm).result.baseline =
      mapComment rebase s.result.baseline
        (seenComment (fun addr => (s.view.functionAt addr).isSome) rebase comm) := by
  have starts (keyed : ImportState) :
      ((applyAddressComment (comm.addr + rebase) comm keyed).view.functionAt (comm.addr + rebase)).isSome =
        (keyed.view.functionAt (comm.addr + rebase)).isSome :=
    BinaryView.functionAt_isSome_congr (by rw [applyAddressComment_frame])
  unfold applyComment
  dsimp only
  rw [applyPlateComment_baseline, starts, applyAddressComment_baseline, recordCommentKey_baseline]
  rfl

/-- The pass records what a restore records of the same records without the
plates of the addresses where no function starts. -/
theorem foldl_applyComment_baseline (rebase : UInt64) (comments : List GhidraComment) (s : ImportState) :
    (comments.foldl (applyComment rebase) s).result.baseline =
      (comments.map (seenComment (fun addr => (s.view.functionAt addr).isSome) rebase)).foldl (mapComment rebase)
        s.result.baseline := by
  induction comments generalizing s with
  | nil => rfl
  | cons comm rest ih =>
    have starts : (fun addr => ((applyComment rebase s comm).view.functionAt addr).isSome) =
        fun addr => (s.view.functionAt addr).isSome := funext (applyComment_functionAt rebase s comm)
    rw [List.foldl_cons, ih, applyComment_baseline, starts, List.map_cons, List.foldl_cons]

/-! ## The whole import -/

theorem applyMemoryBlock_baseline (rebase : UInt64) (s : ImportState) (mb : GhidraMemoryBlock) :
    (applyMemoryBlock rebase s mb).result.baseline = s.result.baseline := by
  unfold applyMemoryBlock
  split <;> rfl

theorem applySymbol_baseline (rebase : UInt64) (s : ImportState) (sym : GhidraSymbol) :
    (applySymbol rebase s sym).result.baseline = mapSymbol rebase s.result.baseline sym := rfl

theorem applyFuncFlags_baseline (s : ImportState) (ff : GhidraFuncFlags) :
    (applyFuncFlags s ff).result.baseline = s.result.baseline := by
  unfold applyFuncFlags
  split
  · rfl
  · split <;> rfl

theorem foldl_applySymbol_baseline (rebase : UInt64) (symbols : List GhidraSymbol) (s : ImportState) :
    (symbols.foldl (applySymbol rebase) s).result.baseline = symbols.foldl (mapSymbol rebase) s.result.baseline := by
  induction symbols generalizing s with
  | nil => rfl
  | cons sym rest ih => rw [List.foldl_cons, ih, applySymbol_baseline, List.foldl_cons]

section
variable (view : BinaryView) (data : GhidraDbExport)

/-- A function of the view starts at the address, or the import creates one
there for a function symbol. -/
def FunctionStarts (addr : UInt64) : Prop :=
  (view.functionAt (addr + rebaseOf view data)).isSome = true ∨
    ∃ sym ∈ data.symbols, Creates view sym ∧ sym.addr = addr

instance (addr : UInt64) : Decidable (FunctionStarts view data addr) := inferInstanceAs (Decidable (_ ∨ _))

theorem afterSymbols_functionAt (addr : UInt64) :
    ((afterSymbols view data).view.functionAt (addr + rebaseOf view data)).isSome = true ↔
      FunctionStarts view data addr := by
  rw [afterSymbols, foldl_applySymbol_functionAt]
  refine or_congr ?_ ?_
  · rw [BinaryView.functionAt_isSome_congr (congrArg _ (afterBlocks_functions view data))]
  · refine exists_congr fun sym => and_congr Iff.rfl ?_
    rw [Creates, afterBlocks_platform, ← Creates]
    exact and_congr Iff.rfl (eq_comm.trans (UInt64.add_left_inj _))

/-- The records as the import of this export takes them. -/
def seenComments : List GhidraComment :=
  data.comments.map
    (seenComment (fun addr => ((afterSymbols view data).view.functionAt addr).isSome) (rebaseOf view data))

/-- The maps of an import are those of a restore from the records it sees. -/
theorem applyToView_baseline :
    (applyToView view data).2.baseline = buildWritebackMaps view { data with comments := seenComments view data } := by
  have flags (s : ImportState) : (data.funcFlags.foldl applyFuncFlags s).result.baseline = s.result.baseline :=
    @Fold.foldl_keeps ImportState GhidraFuncFlags _ _ (fun s => s.result.baseline) applyFuncFlags_baseline
      data.funcFlags s
  have blocks : (afterBlocks view data).result.baseline = { imageBase := data.imageBase } :=
    @Fold.foldl_keeps ImportState GhidraMemoryBlock _ _ (fun s => s.result.baseline) (applyMemoryBlock_baseline _)
      data.memoryBlocks _
  change recordLists data (applyMapped view data).result.baseline = _
  rw [applyMapped_eq, flags, afterComments, foldl_applyComment_baseline, afterSymbols, foldl_applySymbol_baseline,
    blocks]
  rfl

end

/-- A restore counts nothing. -/
theorem buildWritebackMaps_baseline (view : BinaryView) (data : GhidraDbExport) :
    (buildWritebackMaps view data).baseline = buildWritebackMaps view data := by
  have comment (result : SyncResult) (comm : GhidraComment) (counted : result.baseline = result) :
      (mapComment (rebaseOf view data) result comm).baseline = mapComment (rebaseOf view data) result comm := by
    rw [mapComment_eq, mapPlate, mapAddressComment, recordCommentKey, ← counted]
    repeat' split
    all_goals rfl
  change recordLists data (SyncResult.baseline _) = _
  congr 1
  apply List.foldlRecOn data.comments _ (motive := fun result : SyncResult => result.baseline = result)
  · apply List.foldlRecOn data.symbols _ (motive := fun result : SyncResult => result.baseline = result)
    · rfl
    · intro result counted sym _
      rw [← counted]
      rfl
  · exact fun result counted comm _ => comment result comm counted

theorem mem_funcComment_mapComment (rebase : UInt64) (result : SyncResult) (comm : GhidraComment)
    (caddr : UInt64) :
    caddr ∈ (mapComment rebase result comm).addrToOriginalFuncComment ↔
      (comm.plate ≠ "" ∧ comm.addr + rebase = caddr) ∨ caddr ∈ result.addrToOriginalFuncComment := by
  have before (caddr : UInt64) :
      (mapAddressComment caddr comm (recordCommentKey caddr comm result)).addrToOriginalFuncComment =
        result.addrToOriginalFuncComment := by
    unfold mapAddressComment recordCommentKey
    repeat' split
    all_goals rfl
  rw [mapComment_eq, mapPlate]
  split
  · rename_i silent
    rw [before]
    simp [silent]
  · rename_i plate
    rw [Table.mem_set, before]
    simp [plate, eq_comm]

/-- A plate is recorded at exactly the addresses of the records that have one. -/
theorem mem_funcComment_foldl (rebase : UInt64) (comments : List GhidraComment) (result : SyncResult)
    (caddr : UInt64) :
    caddr ∈ (comments.foldl (mapComment rebase) result).addrToOriginalFuncComment ↔
      (∃ comm ∈ comments, comm.plate ≠ "" ∧ comm.addr + rebase = caddr) ∨
        caddr ∈ result.addrToOriginalFuncComment := by
  induction comments generalizing result with
  | nil => simp
  | cons comm rest ih =>
    refine (ih _).trans ?_
    rw [mem_funcComment_mapComment]
    simp only [List.mem_cons, exists_eq_or_imp]
    exact or_left_comm.trans or_assoc.symm

theorem mem_funcComment_buildWritebackMaps (view : BinaryView) (data : GhidraDbExport) (caddr : UInt64) :
    caddr ∈ (buildWritebackMaps view data).addrToOriginalFuncComment ↔
      ∃ comm ∈ data.comments, comm.plate ≠ "" ∧ comm.addr + rebaseOf view data = caddr := by
  have symbols : (data.symbols.foldl (mapSymbol (rebaseOf view data))
      ({ imageBase := data.imageBase } : SyncResult)).addrToOriginalFuncComment = ∅ :=
    List.foldlRecOn data.symbols _ (motive := fun result : SyncResult => result.addrToOriginalFuncComment = ∅) rfl
      fun result same sym _ => same
  refine (mem_funcComment_foldl (rebaseOf view data) data.comments _ caddr).trans ?_
  rw [symbols]
  simp

/-- A restore rebuilds the baselines of the import exactly when every record with
a plate stands where a function starts. -/
theorem restore_rebuilds_import_iff (view : BinaryView) (data : GhidraDbExport) :
    (buildWritebackMaps view data).baseline = (applyToView view data).2.baseline ↔
      ∀ comm ∈ data.comments, comm.plate ≠ "" → FunctionStarts view data comm.addr := by
  rw [applyToView_baseline, buildWritebackMaps_baseline]
  constructor
  · intro same comm member plate
    have restored := (mem_funcComment_buildWritebackMaps view data _).mpr ⟨comm, member, plate, rfl⟩
    rw [same] at restored
    obtain ⟨seen, listed, shown, addr⟩ := (mem_funcComment_buildWritebackMaps view _ _).mp restored
    obtain ⟨other, _, rfl⟩ := List.mem_map.mp listed
    have starts : ((afterSymbols view data).view.functionAt (other.addr + rebaseOf view data)).isSome = true := by
      by_contra missing
      exact shown (if_neg missing)
    have same : other.addr = comm.addr := (UInt64.add_left_inj _).mp addr
    rw [← same]
    exact (afterSymbols_functionAt view data other.addr).mp starts
  · intro starts
    have seen : seenComments view data = data.comments := by
      refine (List.map_congr_left fun comm member => ?_).trans (List.map_id data.comments)
      have kept : (if ((afterSymbols view data).view.functionAt (comm.addr + rebaseOf view data)).isSome = true then
          comm.plate else "") = comm.plate := by
        by_cases plate : comm.plate = ""
        · rw [plate, ite_self]
        · exact if_pos ((afterSymbols_functionAt view data comm.addr).mpr (starts comm member plate))
      rw [seenComment, kept]
      rfl
    rw [seen]

/-- A plate at an address where no function starts. -/
def loosePlate : GhidraDbExport := { comments := [{ addr := 0x401000, plate := "header" }] }

/-- The import shows the plate nowhere and records none; the restore records it. -/
theorem loose_plate_restored :
    (applyToView {} loosePlate).2.addrToOriginalFuncComment.lookup 0x401000 = none ∧
      (buildWritebackMaps {} loosePlate).addrToOriginalFuncComment.lookup 0x401000 = some "header" ∧
      (buildWritebackMaps {} loosePlate).baseline ≠ (applyToView {} loosePlate).2.baseline := by
  have imported : (applyToView {} loosePlate).2.addrToOriginalFuncComment.lookup 0x401000 = none := by
    decide +kernel
  have restored : (buildWritebackMaps {} loosePlate).addrToOriginalFuncComment.lookup 0x401000 = some "header" := by
    decide +kernel
  refine ⟨imported, restored, fun same => ?_⟩
  have tables : (buildWritebackMaps {} loosePlate).addrToOriginalFuncComment =
      (applyToView {} loosePlate).2.addrToOriginalFuncComment := congrArg SyncResult.addrToOriginalFuncComment same
  rw [tables, imported] at restored
  cases restored

end WritebackMaps
end GhidraBridge
