import GhidraBridge.BaselineMoves

/-! Which comments a check-in collects, address by address: the edited address
comment if there is one, else the first edited comment of a function starting
there. The entry does not say which of the two it was. -/
namespace GhidraBridge.CommentEdits
open Lib CheckinState

section
variable (state : CheckinState) (view : BinaryView)

/-- The address comment, where it is not empty and not the baseline's. -/
def addressEdit (addr : UInt64) : Option String :=
  let text := view.getCommentForAddress addr
  if text = "" ∨ text = textAt state.addrToOriginalComment addr then none else some text

/-- A function starting at the address with a comment of its own. -/
def editedAt (addr : UInt64) (func : BNFunction) : Bool :=
  func.start = addr && func.comment ≠ "" && func.comment ≠ textAt state.addrToOriginalFuncComment addr

/-- The first edited function comment at the address. -/
def functionEdit (addr : UInt64) : Option String :=
  (view.functions.find? (editedAt state addr)).map BNFunction.comment

end

variable {state : CheckinState} {view : BinaryView}

theorem mem_collectAddressComments {c : CommentChange} :
    c ∈ collectAddressComments state view ↔
      c.encodedKey = textAt state.addrToCommentKey c.addr ∧ addressEdit state view c.addr = some c.text := by
  unfold collectAddressComments addressEdit BinaryView.getCommentForAddress
  rw [List.mem_filterMap]
  constructor
  · rintro ⟨⟨addr, text⟩, held, made⟩
    have found := Table.mem_items.mp held
    unfold addressComment at made
    split at made
    · cases made
    · rename_i edited
      cases made
      exact ⟨rfl, by simp [commentChange, found, edited]⟩
  · rintro ⟨keyed, edit⟩
    obtain ⟨addr, text, key⟩ := c
    cases found : view.comments.lookup addr with
    | none => simp [found] at edit
    | some held =>
      simp only [found, Option.getD_some] at edit keyed
      split at edit
      · cases edit
      · rename_i edited
        cases edit
        refine ⟨(addr, text), Table.mem_items.mpr found, ?_⟩
        subst keyed
        simp [addressComment, edited, commentChange]

/-- What is queued is decided address by address. -/
private structure QueuedBy (state : CheckinState) (edits : UInt64 → Option String)
    (queued : List CommentChange) : Prop where
  mem_iff : ∀ c : CommentChange,
    c ∈ queued ↔ c.encodedKey = textAt state.addrToCommentKey c.addr ∧ edits c.addr = some c.text

private theorem QueuedBy.any_iff (decided : QueuedBy state edits queued) (addr : UInt64) :
    (queued.any fun c => c.addr = addr) = true ↔ (edits addr).isSome := by
  rw [List.any_eq_true, Option.isSome_iff_exists]
  constructor
  · rintro ⟨c, member, same⟩
    have here : c.addr = addr := by simpa using same
    exact ⟨c.text, here ▸ ((decided.mem_iff c).mp member).2⟩
  · rintro ⟨text, edit⟩
    exact ⟨⟨addr, text, textAt state.addrToCommentKey addr⟩, (decided.mem_iff _).mpr ⟨rfl, edit⟩, by simp⟩

private theorem QueuedBy.step (decided : QueuedBy state edits queued) (func : BNFunction) :
    QueuedBy state
      (fun addr => (edits addr).or (if editedAt state addr func then some func.comment else none))
      (queueFunctionComment state queued func) := by
  refine ⟨fun c => ?_⟩
  unfold queueFunctionComment
  split
  · rename_i skipped
    rw [decided.mem_iff]
    have unchanged : (edits c.addr).or (if editedAt state c.addr func then some func.comment else none) =
        edits c.addr := by
      by_cases here : func.start = c.addr
      · rcases skipped with empty | captured | same
        · simp [editedAt, empty]
        · rw [here, decided.any_iff] at captured
          obtain ⟨text, edit⟩ := Option.isSome_iff_exists.mp captured
          simp [edit]
        · simp [editedAt, ← here, same]
      · simp [editedAt, here]
    rw [unchanged]
  · rename_i queues
    obtain ⟨nonempty, uncaptured, differs⟩ : func.comment ≠ "" ∧
        ¬(queued.any fun c => c.addr = func.start) = true ∧
        func.comment ≠ textAt state.addrToOriginalFuncComment func.start := by
      simpa [not_or] using queues
    rw [decided.any_iff] at uncaptured
    have free : edits func.start = none := by simpa using uncaptured
    rw [List.mem_append, decided.mem_iff, List.mem_singleton]
    by_cases here : func.start = c.addr
    · have edited : editedAt state c.addr func = true := by simp [editedAt, ← here, nonempty, differs]
      rw [here] at free
      simp only [free, edited, if_true, Option.none_or, Option.some.injEq, reduceCtorEq, and_false, false_or]
      obtain ⟨addr, text, key⟩ := c
      dsimp only at here
      subst here
      simp [commentChange, and_comm, eq_comm]
    · have other : editedAt state c.addr func = false := by simp [editedAt, here]
      have apart : c ≠ commentChange state func.start func.comment := by
        rintro rfl
        exact here rfl
      simp [other, apart]

theorem mem_collectComments {c : CommentChange} :
    c ∈ collectComments state view ↔
      c.encodedKey = textAt state.addrToCommentKey c.addr ∧
        (addressEdit state view c.addr).or (functionEdit state view c.addr) = some c.text := by
  have fold (functions : List BNFunction) (edits : UInt64 → Option String) (queued : List CommentChange)
      (decided : QueuedBy state edits queued) :
      QueuedBy state
        (fun addr => (edits addr).or ((functions.find? (editedAt state addr)).map BNFunction.comment))
        (functions.foldl (queueFunctionComment state) queued) := by
    induction functions generalizing edits queued with
    | nil => simpa using decided
    | cons func rest ih =>
      have later := ih _ _ (decided.step func)
      refine ⟨fun c => (later.mem_iff c).trans ?_⟩
      by_cases here : editedAt state c.addr func = true
      · simp [here]
      · simp [here]
  exact (fold view.functions (addressEdit state view) _ ⟨fun _ => mem_collectAddressComments⟩).mem_iff c

/-! ## After the check-in -/

section Moved
variable (base later : CommentBaselines) (addr : UInt64)

/-- Only a function comment is recorded at the address, so its baseline takes
whatever is checked in there. -/
def PlateOnly : Prop := addr ∉ base.comment ∧ addr ∈ base.funcComment

def Untouched : Prop :=
  later.comment.lookup addr = base.comment.lookup addr ∧
    later.funcComment.lookup addr = base.funcComment.lookup addr

/-- One of the two baselines holds the text, the other one is as before. -/
def Moved (text : String) : Prop :=
  (PlateOnly base addr ∧ later.comment.lookup addr = base.comment.lookup addr ∧
      later.funcComment.lookup addr = some text) ∨
    (¬PlateOnly base addr ∧ later.comment.lookup addr = some text ∧
      later.funcComment.lookup addr = base.funcComment.lookup addr)

end Moved

variable {base later : CommentBaselines} {addr : UInt64} {text : String}

private theorem recordComment_elsewhere {c : CommentChange} (elsewhere : c.addr ≠ addr) :
    Untouched later (recordComment later c) addr := by
  unfold recordComment Untouched
  split
  · simp [Table.lookup_set, Ne.symm elsewhere]
  · split
    · simp [Table.lookup_set, Ne.symm elsewhere]
    · simp [Table.lookup_set, Ne.symm elsewhere]

/-- While the function comment is the only baseline, it takes the text. -/
private theorem recordComment_plate {c : CommentChange} (plate : PlateOnly base c.addr)
    (before : Untouched base later c.addr ∨ Moved base later c.addr c.text) :
    Moved base (recordComment later c) c.addr c.text := by
  -- the address stays unknown to the comment baseline, whatever was written before
  have comment : later.comment.lookup c.addr = base.comment.lookup c.addr := by
    rcases before with same | ⟨_, same, _⟩ | ⟨other, _⟩
    · exact same.1
    · exact same
    · exact absurd plate other
  have noComment : c.addr ∉ later.comment := by
    rw [← AList.lookup_eq_none, comment]
    exact AList.lookup_eq_none.mpr plate.1
  have funcComment : c.addr ∈ later.funcComment := by
    rw [← AList.lookup_isSome]
    rcases before with same | ⟨_, _, written⟩ | ⟨other, _⟩
    · rw [same.2]
      exact AList.lookup_isSome.mpr plate.2
    · simp [written]
    · exact absurd plate other
  refine .inl ⟨plate, ?_, ?_⟩
  · rw [recordComment, if_neg noComment, if_pos funcComment]
    exact comment
  · rw [recordComment, if_neg noComment, if_pos funcComment]
    simp [Table.lookup_set]

/-- Everywhere else the address comment takes it. -/
private theorem recordComment_address {c : CommentChange} (plate : ¬PlateOnly base c.addr)
    (before : Untouched base later c.addr ∨ Moved base later c.addr c.text) :
    Moved base (recordComment later c) c.addr c.text := by
  have funcComment : later.funcComment.lookup c.addr = base.funcComment.lookup c.addr := by
    rcases before with same | ⟨other, _⟩ | ⟨_, _, same⟩
    · exact same.2
    · exact absurd other plate
    · exact same
  have noPlate (noComment : c.addr ∉ later.comment) : c.addr ∉ later.funcComment := by
    intro func
    rw [← AList.lookup_isSome, funcComment, AList.lookup_isSome] at func
    rcases before with same | ⟨other, _⟩ | ⟨_, written, _⟩
    · rw [← AList.lookup_eq_none, same.1, AList.lookup_eq_none] at noComment
      exact plate ⟨noComment, func⟩
    · exact plate other
    · exact noComment (AList.lookup_isSome.mp (by simp [written]))
  refine .inr ⟨plate, ?_⟩
  by_cases held : c.addr ∈ later.comment
  · rw [recordComment, if_pos held]
    exact ⟨by simp [Table.lookup_set], funcComment⟩
  · rw [recordComment, if_neg held, if_neg (noPlate held)]
    exact ⟨by simp [Table.lookup_set], funcComment⟩

/-- A run of comments at other addresses leaves both baselines as they are. -/
theorem foldl_recordComment_elsewhere {comments : List CommentChange}
    (elsewhere : ∀ c ∈ comments, c.addr ≠ addr) : Untouched base (comments.foldl recordComment base) addr := by
  induction comments using List.reverseRecOn with
  | nil => exact ⟨rfl, rfl⟩
  | append_singleton front last ih =>
    rw [List.foldl_append, List.foldl_cons, List.foldl_nil]
    obtain ⟨sameComment, sameFunc⟩ := ih fun c member => elsewhere c (List.mem_append_left _ member)
    have untouched := @recordComment_elsewhere (front.foldl recordComment base) addr last (elsewhere last (by simp))
    exact ⟨untouched.1.trans sameComment, untouched.2.trans sameFunc⟩

/-- A run of check-in comments that agree at an address moves one of its baselines
there, and the first of them decides which. -/
theorem foldl_recordComment {comments : List CommentChange}
    (agree : ∀ c ∈ comments, c.addr = addr → c.text = text)
    (before : Untouched base later addr ∨ Moved base later addr text)
    (written : (∃ c ∈ comments, c.addr = addr) ∨ Moved base later addr text) :
    Moved base (comments.foldl recordComment later) addr text := by
  induction comments generalizing later with
  | nil => simpa using written
  | cons c rest ih =>
    have agreeRest : ∀ other ∈ rest, other.addr = addr → other.text = text := fun other member =>
      agree other (List.mem_cons_of_mem c member)
    rw [List.foldl_cons]
    by_cases here : c.addr = addr
    · have sameText := agree c List.mem_cons_self here
      subst here sameText
      have moved : Moved base (recordComment later c) c.addr c.text := by
        by_cases plate : PlateOnly base c.addr
        · exact recordComment_plate plate before
        · exact recordComment_address plate before
      exact ih agreeRest (.inr moved) (.inr moved)
    · have untouched : Untouched later (recordComment later c) addr := recordComment_elsewhere here
      obtain ⟨sameComment, sameFunc⟩ := untouched
      refine ih agreeRest ?_ ?_
      · unfold Untouched Moved at before ⊢
        rwa [sameComment, sameFunc]
      · rcases written with ⟨other, member, there⟩ | moved
        · rcases List.mem_cons.mp member with rfl | later
          · exact absurd there here
          · exact .inl ⟨other, later, there⟩
        · refine .inr ?_
          unfold Moved at moved ⊢
          rwa [sameComment, sameFunc]

/-- The comment baselines of a check-in state. -/
def baselinesOf (state : CheckinState) : CommentBaselines :=
  ⟨state.addrToOriginalComment, state.addrToOriginalFuncComment, state.addrToCommentField⟩

/-- A sent comment is found again where its text went to the baseline of the
other comment at the address. -/
def FoundAgain (state : CheckinState) (view : BinaryView) (c : CommentChange) : Prop :=
  (PlateOnly (baselinesOf state) c.addr ∧ addressEdit state view c.addr ≠ none) ∨
    (¬PlateOnly (baselinesOf state) c.addr ∧ addressEdit state view c.addr ≠ none ∧
      functionEdit state view c.addr = some c.text) ∨
    (¬PlateOnly (baselinesOf state) c.addr ∧ addressEdit state view c.addr = none ∧
      (view.getCommentForAddress c.addr = "" ∨ view.getCommentForAddress c.addr = c.text))

theorem addressEdit_eq_some :
    addressEdit state view addr = some text ↔
      view.getCommentForAddress addr = text ∧ text ≠ "" ∧ text ≠ textAt state.addrToOriginalComment addr := by
  unfold addressEdit
  dsimp only
  split
  · rename_i unedited
    constructor
    · intro made
      cases made
    · rintro ⟨rfl, nonempty, differs⟩
      exact absurd unedited (not_or.mpr ⟨nonempty, differs⟩)
  · rename_i edited
    rw [Option.some.injEq]
    refine ⟨?_, fun spec => spec.1⟩
    rintro rfl
    exact ⟨rfl, not_or.mp edited⟩

theorem addressEdit_eq_none :
    addressEdit state view addr = none ↔
      view.getCommentForAddress addr = "" ∨
        view.getCommentForAddress addr = textAt state.addrToOriginalComment addr := by
  unfold addressEdit
  dsimp only
  split
  · rename_i unedited
    simp [unedited]
  · rename_i edited
    simp [edited]

theorem functionEdit_eq_none :
    functionEdit state view addr = none ↔
      ∀ func ∈ view.functions, func.start = addr → func.comment ≠ "" →
        func.comment = textAt state.addrToOriginalFuncComment addr := by
  simp only [functionEdit, Option.map_eq_none_iff, List.find?_eq_none, editedAt, Bool.and_eq_true,
    decide_eq_true_eq, not_and, not_not]
  exact forall₂_congr fun func _ =>
    ⟨fun all here nonempty => all ⟨here, nonempty⟩, fun all both => all both.1 both.2⟩

theorem functionEdit_ne_baseline (edit : functionEdit state view addr = some text) :
    text ≠ textAt state.addrToOriginalFuncComment addr := by
  unfold functionEdit at edit
  obtain ⟨func, found, rfl⟩ := Option.map_eq_some_iff.mp edit
  have edited := List.find?_some found
  simp only [editedAt, Bool.and_eq_true, decide_eq_true_eq] at edited
  exact edited.2

theorem functionEdit_congr {next : CheckinState}
    (same : textAt next.addrToOriginalFuncComment addr = textAt state.addrToOriginalFuncComment addr) :
    functionEdit next view addr = functionEdit state view addr := by
  have edited : editedAt next addr = editedAt state addr := by
    funext func
    rw [editedAt, editedAt, same]
  rw [functionEdit, functionEdit, edited]

theorem comment_found_again_iff {next : CheckinState} {c : CommentChange}
    (moved : BaselineMoves.CheckedIn state view next) (sent : c ∈ collectComments state view) :
    c ∈ collectComments next view ↔ FoundAgain state view c := by
  obtain ⟨keyed, edit⟩ := mem_collectComments.mp sent
  have agree : ∀ other ∈ collectComments state view, other.addr = c.addr → other.text = c.text := by
    intro other member same
    have otherEdit := (mem_collectComments.mp member).2
    rw [same, edit, Option.some.injEq] at otherEdit
    exact otherEdit.symm
  have written : Moved (baselinesOf state) (baselinesOf next) c.addr c.text := by
    rw [show baselinesOf next = _ from moved.comments]
    exact foldl_recordComment agree (.inl ⟨rfl, rfl⟩) (.inl ⟨c, sent, rfl⟩)
  rw [mem_collectComments, moved.commentKeys, and_iff_right keyed]
  rcases written with ⟨plate, commentKept, funcWritten⟩ | ⟨noPlate, commentWritten, funcKept⟩
  · have addressKept : addressEdit next view c.addr = addressEdit state view c.addr := by
      unfold addressEdit textAt
      rw [show next.addrToOriginalComment.lookup c.addr = state.addrToOriginalComment.lookup c.addr from
        commentKept]
    have noFunction : functionEdit next view c.addr ≠ some c.text := by
      intro again
      refine functionEdit_ne_baseline again ?_
      rw [textAt, show next.addrToOriginalFuncComment.lookup c.addr = some c.text from funcWritten]
      rfl
    rw [addressKept]
    cases address : addressEdit state view c.addr with
    | none => simpa [FoundAgain, plate, address] using noFunction
    | some text =>
      rw [address, Option.some_or] at edit
      simp [FoundAgain, plate, address, edit]
  · have functionKept : functionEdit next view c.addr = functionEdit state view c.addr := by
      refine functionEdit_congr ?_
      rw [textAt, textAt, show next.addrToOriginalFuncComment.lookup c.addr =
        state.addrToOriginalFuncComment.lookup c.addr from funcKept]
    have baseline : textAt next.addrToOriginalComment c.addr = c.text := by
      rw [textAt, show next.addrToOriginalComment.lookup c.addr = some c.text from commentWritten]
      rfl
    have addressMoved : addressEdit next view c.addr =
        if view.getCommentForAddress c.addr = "" ∨ view.getCommentForAddress c.addr = c.text then none
        else some (view.getCommentForAddress c.addr) := by
      rw [addressEdit, baseline]
    rw [functionKept, addressMoved]
    cases address : addressEdit state view c.addr with
    | some text =>
      rw [address, Option.some_or, Option.some.injEq] at edit
      subst edit
      obtain ⟨shown, _⟩ := addressEdit_eq_some.mp address
      simp [FoundAgain, noPlate, address, shown]
    | none =>
      rw [address, Option.none_or] at edit
      by_cases silent : view.getCommentForAddress c.addr = "" ∨ view.getCommentForAddress c.addr = c.text
      · simp [FoundAgain, noPlate, address, silent, edit]
      · rw [if_neg silent, Option.some_or, Option.some.injEq]
        simp only [FoundAgain, noPlate, address, silent, ne_eq, not_true_eq_false, and_false, false_and,
          or_false, iff_false]
        exact (not_or.mp silent).2

end GhidraBridge.CommentEdits
