import Mathlib.Data.Set.Lattice
import Mathlib.Order.CompletePartialOrder
import GhidraBridge.ImportFrames
import GhidraBridge.Lib.Runs

/-! The memory map of an import. Blocks become named sections, and a segment is added
only for a block whose first byte nothing maps yet, so that no existing segment is
touched and each section lies on mapped memory. -/
namespace GhidraBridge.MemoryMap
open Lib Lib.Runs SyncEngine

/-! ## The calls of the import -/

/-- The addresses of a range, counted on from the top of the address space. -/
def range (start size : UInt64) : Set UInt64 := {addr | addr - start < size}

/-- The addresses that the segments of the view cover. -/
def mapped (view : BinaryView) : Set UInt64 := {addr | (view.getSegmentAt addr).isSome}

/-- A call that changes the memory map. -/
inductive MemoryCall where
  | addUserSegment (segment : Segment)
  | addUserSection (sec : BNSection)
  deriving DecidableEq

namespace MemoryCall

def run (view : BinaryView) : MemoryCall → BinaryView
  | addUserSegment segment => view.addUserSegment segment
  | addUserSection sec => view.addUserSection sec

/-- A segment is for a range that is not mapped, and a section for one that is. -/
def Safe (view : BinaryView) : MemoryCall → Prop
  | addUserSegment segment => Disjoint (range segment.start segment.length) (mapped view)
  | addUserSection sec => range sec.start sec.length ⊆ mapped view

end MemoryCall

/-- Empty blocks and those of overlay spaces are skipped. -/
def Counted (mb : GhidraMemoryBlock) : Prop := ¬(mb.size = 0 ∨ mb.overlay)

instance (mb : GhidraMemoryBlock) : Decidable (Counted mb) := inferInstanceAs (Decidable (¬_))

def blockSegment (rebase : UInt64) (mb : GhidraMemoryBlock) : Segment :=
  ⟨mb.addr + rebase, mb.size, ⟨mb.read, mb.write, mb.execute, mb.execute⟩⟩

def blockSection (rebase : UInt64) (mb : GhidraMemoryBlock) : BNSection where
  name := if mb.name = "" then "ghidra_" ++ toString (mb.addr + rebase) else mb.name
  start := mb.addr + rebase
  length := mb.size
  semantics := if mb.execute then .readOnlyCode else if mb.write then .readWriteData else .readOnlyData

/-- The calls made for one block. -/
def blockCalls (rebase : UInt64) (view : BinaryView) (mb : GhidraMemoryBlock) : List MemoryCall :=
  if Counted mb then
    (if (view.getSegmentAt (mb.addr + rebase)).isNone then [.addUserSegment (blockSegment rebase mb)] else []) ++
      [.addUserSection (blockSection rebase mb)]
  else []

/-- The view after the calls for one block. -/
def runBlock (rebase : UInt64) (view : BinaryView) (mb : GhidraMemoryBlock) : BinaryView :=
  (blockCalls rebase view mb).foldl MemoryCall.run view

/-- The calls made for all blocks, each block met in the view its predecessors leave. -/
def importCalls (rebase : UInt64) : BinaryView → List GhidraMemoryBlock → List MemoryCall
  | _, [] => []
  | view, mb :: rest => blockCalls rebase view mb ++ importCalls rebase (runBlock rebase view mb) rest

theorem applyMemoryBlock_view (rebase : UInt64) (s : ImportState) (mb : GhidraMemoryBlock) :
    (applyMemoryBlock rebase s mb).view = runBlock rebase s.view mb := by
  unfold applyMemoryBlock runBlock blockCalls
  by_cases counted : Counted mb
  case neg =>
    rw [if_pos (not_not.mp counted), if_neg counted]
    rfl
  case pos =>
    rw [if_neg counted, if_pos counted]
    by_cases unmapped : (s.view.getSegmentAt (mb.addr + rebase)).isNone
    · simp only [if_pos unmapped]
      rfl
    · simp only [if_neg unmapped]
      rfl

theorem importCalls_run (rebase : UInt64) (s : ImportState) (blocks : List GhidraMemoryBlock) :
    (importCalls rebase s.view blocks).foldl MemoryCall.run s.view =
      (blocks.foldl (applyMemoryBlock rebase) s).view := by
  induction blocks generalizing s with
  | nil => rfl
  | cons mb rest ih =>
    rw [importCalls, List.foldl_append, List.foldl_cons, ← ih, applyMemoryBlock_view]
    rfl

/-- The import makes these calls and no others: they alone lead to its segments and sections. -/
theorem applyToView_memory (view : BinaryView) (data : GhidraDbExport) :
    let after := (importCalls (rebaseOf view data) view data.memoryBlocks).foldl MemoryCall.run view
    (applyToView view data).1.segments = after.segments ∧ (applyToView view data).1.sections = after.sections := by
  intro after
  have replayed : after = (afterBlocks view data).view :=
    importCalls_run (rebaseOf view data) { view, result := { imageBase := data.imageBase } } data.memoryBlocks
  have shown := applyToView_shown view data
  rw [replayed]
  constructor
  · exact (congrArg BinaryView.segments shown).trans (by rw [afterComments_frame, afterSymbols_frame]; rfl)
  · exact (congrArg BinaryView.sections shown).trans (by rw [afterComments_frame, afterSymbols_frame]; rfl)

/-- The segments of the view stay as they are, in front of the added ones. -/
theorem existing_segments_stay (view : BinaryView) (data : GhidraDbExport) :
    view.segments <+: (applyToView view data).1.segments := by
  rw [(applyToView_memory view data).1]
  refine List.foldlRecOn (motive := fun after : BinaryView => view.segments <+: after.segments) _ _
    (List.prefix_refl _) fun current stays call _ => ?_
  cases call with
  | addUserSegment segment => exact stays.trans (List.prefix_append _ _)
  | addUserSection sec => exact stays

/-! ## What one block needs -/

/-- A range is mapped as a whole, or nothing of it is and it ends within the address space. -/
def Fits (taken : Set UInt64) (start size : UInt64) : Prop :=
  range start size ⊆ taken ∨ Disjoint (range start size) taken ∧ start.toNat + size.toNat ≤ 2 ^ 64

/-- The addresses a segment covers: those of its range that do not start over at 0. -/
def covered (segment : Segment) : Set UInt64 :=
  {addr | segment.start ≤ addr ∧ addr ∈ range segment.start segment.length}

theorem mem_range {start size addr : UInt64} :
    addr ∈ range start size ↔ (2 ^ 64 - start.toNat + addr.toNat) % 2 ^ 64 < size.toNat := by
  rw [range, Set.mem_ofPred_eq, UInt64.lt_iff_toNat_lt, UInt64.toNat_sub]

theorem start_mem_range {start size : UInt64} (some : size ≠ 0) : start ∈ range start size := by
  have positive : size.toNat ≠ 0 := fun empty => some (UInt64.toNat_inj.mp empty)
  have bound := start.toNat_lt
  rw [mem_range]
  omega

/-- A segment covers its range up to the top of the address space. -/
theorem range_subset_covered_iff {segment : Segment} :
    range segment.start segment.length ⊆ covered segment ↔
      segment.start.toNat + segment.length.toNat ≤ 2 ^ 64 := by
  have bound := segment.start.toNat_lt
  have limit := segment.length.toNat_lt
  constructor
  · intro whole
    by_contra past
    have zero : (0 : UInt64) ∈ range segment.start segment.length := by
      have low : (0 : UInt64).toNat = 0 := rfl
      rw [mem_range, low]
      omega
    have first := UInt64.le_iff_toNat_le.mp (whole zero).1
    have low : (0 : UInt64).toNat = 0 := rfl
    omega
  · intro within addr inside
    refine ⟨?_, inside⟩
    have top := addr.toNat_lt
    rw [mem_range] at inside
    rw [UInt64.le_iff_toNat_le]
    omega

theorem covered_eq_range {segment : Segment} :
    covered segment = range segment.start segment.length ↔ segment.start.toNat + segment.length.toNat ≤ 2 ^ 64 := by
  rw [← range_subset_covered_iff]
  exact ⟨fun same => same.superset, fun whole => Set.Subset.antisymm (fun _ inside => inside.2) whole⟩

theorem mapped_addUserSegment (view : BinaryView) (segment : Segment) :
    mapped (view.addUserSegment segment) = mapped view ∪ covered segment := by
  ext addr
  simp [mapped, covered, range, BinaryView.getSegmentAt, BinaryView.addUserSegment]

section Block
variable {rebase : UInt64} {view : BinaryView} {mb : GhidraMemoryBlock}

theorem not_mem_mapped {addr : UInt64} : addr ∉ mapped view ↔ (view.getSegmentAt addr).isNone := by
  simp [mapped]

/-- The calls for a block are safe exactly when the block fits what is mapped. -/
theorem blockCalls_safe_iff (counted : Counted mb) :
    Guarded MemoryCall.run MemoryCall.Safe view (blockCalls rebase view mb) ↔
      Fits (mapped view) (mb.addr + rebase) mb.size := by
  have first : mb.addr + rebase ∈ range (mb.addr + rebase) mb.size := start_mem_range fun empty => counted (.inl empty)
  rw [blockCalls, if_pos counted]
  by_cases unmapped : mb.addr + rebase ∉ mapped view
  · rw [if_pos (not_mem_mapped.mp unmapped)]
    have ends := @range_subset_covered_iff (blockSegment rebase mb)
    constructor
    · rintro ⟨apart, whole, -⟩
      rw [MemoryCall.Safe, MemoryCall.run, mapped_addUserSegment] at whole
      exact .inr ⟨apart, ends.mp (apart.subset_right_of_subset_union whole)⟩
    · rintro (whole | ⟨apart, within⟩)
      · exact absurd (whole first) unmapped
      · refine ⟨apart, ?_, trivial⟩
        rw [MemoryCall.Safe, MemoryCall.run, mapped_addUserSegment]
        exact (ends.mpr within).trans Set.subset_union_right
  · rw [if_neg (fun none => unmapped (not_mem_mapped.mpr none))]
    constructor
    · rintro ⟨whole, -⟩
      exact .inl whole
    · rintro (whole | ⟨apart, -⟩)
      · exact ⟨whole, trivial⟩
      · exact absurd (Set.disjoint_left.mp apart first) unmapped

/-- A block that fits maps its range and nothing else. -/
theorem mapped_runBlock (counted : Counted mb) (fits : Fits (mapped view) (mb.addr + rebase) mb.size) :
    mapped (runBlock rebase view mb) = mapped view ∪ range (mb.addr + rebase) mb.size := by
  have first : mb.addr + rebase ∈ range (mb.addr + rebase) mb.size := start_mem_range fun empty => counted (.inl empty)
  rw [runBlock, blockCalls, if_pos counted]
  by_cases unmapped : mb.addr + rebase ∉ mapped view
  · rw [if_pos (not_mem_mapped.mp unmapped)]
    rcases fits with whole | ⟨-, within⟩
    · exact absurd (whole first) unmapped
    · have same := (@covered_eq_range (blockSegment rebase mb)).mpr within
      rw [blockSegment] at same
      rw [← same, ← mapped_addUserSegment]
      rfl
  · rw [if_neg (fun none => unmapped (not_mem_mapped.mpr none))]
    rcases fits with whole | ⟨apart, -⟩
    · rw [Set.union_eq_self_of_subset_right whole]
      rfl
    · exact absurd (Set.disjoint_left.mp apart first) unmapped

theorem runBlock_of_skipped (skipped : ¬Counted mb) : runBlock rebase view mb = view := by
  rw [runBlock, blockCalls, if_neg skipped]
  rfl

end Block

/-! ## The whole import -/

/-- What is mapped once a block is in place. -/
def claim (rebase : UInt64) (taken : Set UInt64) (mb : GhidraMemoryBlock) : Set UInt64 :=
  if Counted mb then taken ∪ range (mb.addr + rebase) mb.size else taken

/-- The addresses mapped by the view or by a block that is not skipped. -/
def mappedOrClaimed (rebase : UInt64) (view : BinaryView) (blocks : List GhidraMemoryBlock) : Set UInt64 :=
  {addr | addr ∈ mapped view ∨ ∃ mb ∈ blocks, Counted mb ∧ addr ∈ range (mb.addr + rebase) mb.size}

theorem foldl_claim (rebase : UInt64) (view : BinaryView) (blocks : List GhidraMemoryBlock) :
    blocks.foldl (claim rebase) (mapped view) = mappedOrClaimed rebase view blocks := by
  induction blocks using List.reverseRecOn with
  | nil =>
    ext addr
    simp [mappedOrClaimed]
  | append_singleton rest mb ih =>
    rw [List.foldl_append, ih]
    ext addr
    by_cases counted : Counted mb <;>
      simp [claim, mappedOrClaimed, counted, or_and_right, exists_or, or_assoc]

/-- The calls one after the other, gathered by the block they are made for. -/
theorem importCalls_guarded (rebase : UInt64) (view : BinaryView) (blocks : List GhidraMemoryBlock) :
    Guarded MemoryCall.run MemoryCall.Safe view (importCalls rebase view blocks) ↔
      Guarded (runBlock rebase)
        (fun view mb => Guarded MemoryCall.run MemoryCall.Safe view (blockCalls rebase view mb)) view blocks := by
  induction blocks generalizing view with
  | nil => exact Iff.rfl
  | cons mb rest ih =>
    rw [importCalls, guarded_append, Guarded, ← ih]
    rfl

/-- As long as every block fits, the segments of the view cover what the blocks claim. -/
theorem importCalls_safe_iff (rebase : UInt64) (view : BinaryView) (blocks : List GhidraMemoryBlock) :
    Guarded MemoryCall.run MemoryCall.Safe view (importCalls rebase view blocks) ↔
      Guarded (claim rebase) (fun taken mb => Counted mb → Fits taken (mb.addr + rebase) mb.size)
        (mapped view) blocks := by
  rw [importCalls_guarded]
  refine @guarded_iff_of_related _ _ _ _ _ _ _ (fun view taken => mapped view = taken) ?_ ?_ _ _ _ rfl
  · rintro view _ mb rfl
    by_cases counted : Counted mb
    · rw [blockCalls_safe_iff counted]
      exact ⟨fun fits _ => fits, fun fits => fits counted⟩
    · rw [blockCalls, if_neg counted]
      exact iff_of_true trivial fun also => absurd also counted
  · rintro view _ mb rfl safe
    by_cases counted : Counted mb
    · rw [claim, if_pos counted, mapped_runBlock counted ((blockCalls_safe_iff counted).mp safe)]
    · rw [claim, if_neg counted, runBlock_of_skipped counted]

/-- Every call is safe exactly when each block that is not skipped lies either within
what the view and the blocks before it map, or apart from all of it and below the
top of the address space. -/
theorem imported_blocks_safe_iff (view : BinaryView) (data : GhidraDbExport) :
    (∀ before call after, importCalls (rebaseOf view data) view data.memoryBlocks = before ++ call :: after →
        call.Safe (before.foldl MemoryCall.run view)) ↔
      ∀ before mb after, data.memoryBlocks = before ++ mb :: after → Counted mb →
        Fits (mappedOrClaimed (rebaseOf view data) view before) (mb.addr + rebaseOf view data) mb.size := by
  rw [← guarded_iff, importCalls_safe_iff, guarded_iff]
  simp only [foldl_claim]

/-- A block that starts before a segment and reaches into it gets a segment over it. -/
theorem overlapping_block_collides :
    let view : BinaryView := { segments := [⟨0x1000, 0x1000, ⟨true, false, true, true⟩⟩] }
    let data : GhidraDbExport := { memoryBlocks := [{ name := "low", addr := 0x800, size := 0x1000 }] }
    view.segments.Pairwise (fun first second => Disjoint (covered first) (covered second)) ∧
      ¬∀ before call after, importCalls (rebaseOf view data) view data.memoryBlocks = before ++ call :: after →
        call.Safe (before.foldl MemoryCall.run view) := by
  intro view data
  refine ⟨List.pairwise_singleton _ _, fun safe => ?_⟩
  have first := safe [] (.addUserSegment ⟨0x800, 0x1000, ⟨true, false, false, false⟩⟩)
    [.addUserSection ⟨"low", 0x800, 0x1000, .readOnlyData⟩] (by decide)
  have claimed : (0x1000 : UInt64) ∈ range 0x800 0x1000 := by
    change (0x1000 : UInt64) - 0x800 < 0x1000
    decide
  have held : (0x1000 : UInt64) ∈ mapped view := by
    change (view.getSegmentAt 0x1000).isSome
    decide
  exact Set.disjoint_left.mp first claimed held

end GhidraBridge.MemoryMap
