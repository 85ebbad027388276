import GhidraBridge.Convergence

/-! Comments after a check-in of everything collected. One list carries address
comments and function comments, and the baseline that takes an entry is chosen by
what was recorded at its address, so a function comment settles only where a
function comment alone was recorded, and an address comment only elsewhere. -/
namespace GhidraBridge.CommentConvergence
open Lib CheckinState BaselineMoves CheckinRetention CommentEdits Convergence

variable {state next : CheckinState} {view : BinaryView} {addr : UInt64}

/-- Every function comment at the address is empty or the recorded one. -/
def FunctionCommentsRecorded (state : CheckinState) (view : BinaryView) (addr : UInt64) : Prop :=
  ∀ func ∈ view.functions, func.start = addr → func.comment ≠ "" →
    func.comment = textAt state.addrToOriginalFuncComment addr

/-- An edited function comment at the address is that of every commented function
starting there. -/
def EditedCommentsAgree (state : CheckinState) (view : BinaryView) (addr : UInt64) : Prop :=
  ∀ func ∈ view.functions, func.start = addr → func.comment ≠ "" →
    func.comment ≠ textAt state.addrToOriginalFuncComment addr →
      ∀ other ∈ view.functions, other.start = addr → other.comment ≠ "" → other.comment = func.comment

/-- The baseline an entry at the address is recorded in is the one it is compared with. -/
def BaselineTakesEdit (state : CheckinState) (view : BinaryView) (addr : UInt64) : Prop :=
  (addr ∉ state.addrToOriginalComment ∧ addr ∈ state.addrToOriginalFuncComment →
    view.getCommentForAddress addr = "" ∧ EditedCommentsAgree state view addr) ∧
  (addr ∈ state.addrToOriginalComment ∨ addr ∉ state.addrToOriginalFuncComment →
    FunctionCommentsRecorded state view addr)

/-- What is edited at the address. -/
private def editAt (state : CheckinState) (view : BinaryView) (addr : UInt64) : Option String :=
  (addressEdit state view addr).or (functionEdit state view addr)

private theorem edit_of_mem {c : CommentChange} (member : c ∈ collectComments state view) :
    editAt state view c.addr = some c.text :=
  (mem_collectComments.mp member).2

private theorem textAt_unrecorded {table : Table UInt64 String} (unrecorded : addr ∉ table) :
    textAt table addr = "" := by
  rw [textAt, AList.lookup_eq_none.mpr unrecorded]
  rfl

private theorem comments_eq_nil_iff :
    collectComments state view = [] ↔ ∀ addr, editAt state view addr = none := by
  rw [List.eq_nil_iff_forall_not_mem]
  constructor
  · intro settled addr
    by_contra edited
    obtain ⟨text, edit⟩ := Option.ne_none_iff_exists'.mp edited
    exact settled ⟨addr, text, textAt state.addrToCommentKey addr⟩ (mem_collectComments.mpr ⟨rfl, edit⟩)
  · intro unedited c member
    have edit := edit_of_mem member
    rw [unedited] at edit
    cases edit

private theorem baselineTakesEdit_of_unedited (unedited : editAt state view addr = none) :
    BaselineTakesEdit state view addr := by
  obtain ⟨noAddress, noFunction⟩ := Option.or_eq_none_iff.mp unedited
  have recorded := functionEdit_eq_none.mp noFunction
  refine ⟨fun plate => ⟨?_, ?_⟩, fun _ => recorded⟩
  · rcases addressEdit_eq_none.mp noAddress with empty | same
    · exact empty
    · rw [same, textAt_unrecorded plate.1]
  · intro func member here nonempty differs
    exact absurd (recorded func member here nonempty) differs

/-- Where a function comment alone is recorded, its baseline took the text. -/
private theorem settled_plate_iff {text : String} (plate : PlateOnly (baselinesOf state) addr)
    (edit : editAt state view addr = some text)
    (commentKept : textAt next.addrToOriginalComment addr = textAt state.addrToOriginalComment addr)
    (funcWritten : textAt next.addrToOriginalFuncComment addr = text) :
    editAt next view addr = none ↔
      view.getCommentForAddress addr = "" ∧ EditedCommentsAgree state view addr := by
  have blank : textAt state.addrToOriginalComment addr = "" := textAt_unrecorded plate.1
  rw [editAt, Option.or_eq_none_iff, addressEdit_eq_none, commentKept, blank, or_self, functionEdit_eq_none,
    funcWritten]
  refine and_congr_right fun empty => ?_
  have noAddress : addressEdit state view addr = none := addressEdit_eq_none.mpr (.inl empty)
  rw [editAt, noAddress, Option.none_or] at edit
  constructor
  · intro settled func member here nonempty _ other otherMember otherHere otherNonempty
    rw [settled func member here nonempty, settled other otherMember otherHere otherNonempty]
  · intro agree other otherMember otherHere otherNonempty
    have differs := functionEdit_ne_baseline edit
    obtain ⟨func, found, rfl⟩ := Option.map_eq_some_iff.mp edit
    have edited := List.find?_some found
    simp only [editedAt, Bool.and_eq_true, decide_eq_true_eq] at edited
    exact agree func (List.mem_of_find?_eq_some found) edited.1.1 edited.1.2 differs other otherMember otherHere
      otherNonempty

/-- Everywhere else the baseline of the address comment took the text. -/
private theorem settled_address_iff {text : String} (edit : editAt state view addr = some text)
    (commentWritten : textAt next.addrToOriginalComment addr = text)
    (funcKept : textAt next.addrToOriginalFuncComment addr = textAt state.addrToOriginalFuncComment addr) :
    editAt next view addr = none ↔ FunctionCommentsRecorded state view addr := by
  rw [editAt, Option.or_eq_none_iff, functionEdit_congr funcKept, functionEdit_eq_none]
  refine ⟨fun settled => settled.2, fun recorded => ⟨?_, recorded⟩⟩
  have noFunction : functionEdit state view addr = none := functionEdit_eq_none.mpr recorded
  rw [editAt, noFunction, Option.or_none] at edit
  rw [addressEdit_eq_none, commentWritten]
  exact .inr (addressEdit_eq_some.mp edit).1

private theorem edit_settled_iff (moved : CheckedIn state view next) :
    editAt next view addr = none ↔ BaselineTakesEdit state view addr := by
  have moves : baselinesOf next = (collectComments state view).foldl recordComment (baselinesOf state) :=
    moved.comments
  cases edit : editAt state view addr with
  | none =>
    have elsewhere : ∀ c ∈ collectComments state view, c.addr ≠ addr := by
      rintro c member rfl
      rw [edit_of_mem member] at edit
      cases edit
    have untouched : Untouched (baselinesOf state) (baselinesOf next) addr := by
      rw [moves]
      exact foldl_recordComment_elsewhere elsewhere
    have commentKept : textAt next.addrToOriginalComment addr = textAt state.addrToOriginalComment addr :=
      congrArg (Option.getD · "") untouched.1
    have funcKept : textAt next.addrToOriginalFuncComment addr = textAt state.addrToOriginalFuncComment addr :=
      congrArg (Option.getD · "") untouched.2
    have kept : editAt next view addr = editAt state view addr := by
      rw [editAt, editAt, functionEdit_congr funcKept, addressEdit, addressEdit, commentKept]
    rw [kept, edit]
    exact iff_of_true rfl (baselineTakesEdit_of_unedited edit)
  | some text =>
    have sent : ⟨addr, text, textAt state.addrToCommentKey addr⟩ ∈ collectComments state view :=
      mem_collectComments.mpr ⟨rfl, edit⟩
    have agree : ∀ c ∈ collectComments state view, c.addr = addr → c.text = text := by
      rintro c member rfl
      exact Option.some.inj ((edit_of_mem member).symm.trans edit)
    have written : Moved (baselinesOf state) (baselinesOf next) addr text := by
      rw [moves]
      exact foldl_recordComment agree (.inl ⟨rfl, rfl⟩) (.inl ⟨_, sent, rfl⟩)
    have plateIff : PlateOnly (baselinesOf state) addr ↔
        addr ∉ state.addrToOriginalComment ∧ addr ∈ state.addrToOriginalFuncComment := Iff.rfl
    have notPlateIff : ¬PlateOnly (baselinesOf state) addr ↔
        addr ∈ state.addrToOriginalComment ∨ addr ∉ state.addrToOriginalFuncComment := by
      rw [plateIff, not_and_or, not_not]
    rw [BaselineTakesEdit, ← plateIff, ← notPlateIff]
    rcases written with ⟨plate, commentKept, funcWritten⟩ | ⟨noPlate, commentWritten, funcKept⟩
    · rw [settled_plate_iff plate edit (congrArg (Option.getD · "") commentKept)
        (congrArg (Option.getD · "") funcWritten)]
      exact ⟨fun taken => ⟨fun _ => taken, fun other => absurd plate other⟩, fun taken => taken.1 plate⟩
    · rw [settled_address_iff edit (congrArg (Option.getD · "") commentWritten)
        (congrArg (Option.getD · "") funcKept)]
      exact ⟨fun taken => ⟨fun plate => absurd plate noPlate, fun _ => taken⟩, fun taken => taken.2 noPlate⟩

/-- The comments are settled exactly when, at each address, the baseline that takes
the edit is the one it was found against. -/
theorem comments_converge_iff (conn : GhidraConnection) (view : BinaryView) (comment : String)
    (send : Json → Except String Json)
    (succeeded : (conn.checkin view (conn.checkinState.collectCheckinChanges view) comment send).1.success =
      true) :
    (collectedAgain conn view comment send).comments = [] ↔
      ∀ addr, BaselineTakesEdit conn.checkinState view addr := by
  have moved := checkedIn_of_success succeeded
  rw [collectedAgain, moved.collected]
  exact comments_eq_nil_iff.trans (forall_congr' fun _ => edit_settled_iff moved)

/-- A commented function, and an address comment elsewhere. -/
def commentedView : BinaryView :=
  { functions := [{ start := 0x401000, comment := "parses the header" }]
    comments := Table.set ∅ 0x402000 "end of the loop" }

/-- A function comment was recorded at the function. -/
def plateState : CheckinState := { addrToOriginalFuncComment := Table.set ∅ 0x401000 "entry" }

/-- A new address comment and an edit of a recorded function comment are sent once. -/
theorem recorded_function_comment_converges :
    let conn := connectionWith plateState
    let preview := conn.checkinState.collectCheckinChanges commentedView
    preview.comments = [⟨0x402000, "end of the loop", ""⟩, ⟨0x401000, "parses the header", ""⟩] ∧
      (collectedAgain conn commentedView "note" (replyApplied [("comments", 2)])).comments = [] := by
  have only {func : BNFunction} (member : func ∈ commentedView.functions) : func.start = 0x401000 :=
    List.mem_singleton.mp member ▸ rfl
  have recorded : (0x401000 : UInt64) ∈ plateState.addrToOriginalFuncComment := by decide +kernel
  refine ⟨by decide +kernel, (comments_converge_iff _ _ _ _ (by decide +kernel)).mpr fun addr => ⟨?_, ?_⟩⟩
  · rintro ⟨_, plate⟩
    have here : addr = 0x401000 := by simpa [connectionWith, plateState] using plate
    subst here
    refine ⟨by decide +kernel, ?_⟩
    intro func member _ _ _ other otherMember _ _
    rw [List.mem_singleton.mp member, List.mem_singleton.mp otherMember]
  · rintro (known | unrecorded) func member rfl
    · cases known
    · exact absurd (only member ▸ recorded) unrecorded

/-- A function comment where nothing was recorded is taken for an address comment,
so the next collection finds it again. -/
theorem new_function_comment_sent_again :
    let conn := connectionWith {}
    let send := replyApplied [("comments", 2)]
    let attempt := conn.checkin commentedView (conn.checkinState.collectCheckinChanges commentedView) "note" send
    attempt.1.success = true ∧ attempt.1.warned = [] ∧
      (collectedAgain conn commentedView "note" send).comments = [⟨0x401000, "parses the header", ""⟩] := by
  decide +kernel

end GhidraBridge.CommentConvergence
