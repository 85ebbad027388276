import GhidraBridge.ImportEffects
import GhidraBridge.CommentEdits
import GhidraBridge.ProgramApplier

/-! Which column of the Comments table an edited comment reaches. The request
carries one text per address and one column for it; the column is the plate
wherever the import recorded one, whichever of the two comments was edited. -/
namespace GhidraBridge.CommentRouting
open Lib CheckinState CommentEdits ProgramApplier

/-! ## The column an address comment was imported from -/

def columnOf : CommentField → CommentType
  | .eol => .eol
  | .rep => .repeatable
  | .pre => .pre
  | .post => .post

/-- The filled column of a record besides the plate, or `eol`. -/
def filledColumn (comm : GhidraComment) : CommentType :=
  if comm.eol ≠ "" then .eol
  else if comm.rep ≠ "" then .repeatable
  else if comm.pre ≠ "" then .pre
  else if comm.post ≠ "" then .post
  else .eol

/-- The column the address comment at one of Ghidra's addresses was imported from. -/
def importedColumn (data : GhidraDbExport) (va : UInt64) : CommentType :=
  match data.comments.find? fun comm => comm.addr = va with
  | some comm => filledColumn comm
  | none => .eol

/-- One record per address, with at most one column filled besides the plate. -/
structure PlainComments (data : GhidraDbExport) : Prop where
  unique : (data.comments.map GhidraComment.addr).Nodup
  single : ∀ comm ∈ data.comments, comm.parts.length ≤ 1

theorem field_of_single {comm : GhidraComment} (single : comm.parts.length ≤ 1) :
    columnOf comm.field = filledColumn comm := by
  unfold GhidraComment.field GhidraComment.parts filledColumn at *
  by_cases eol : comm.eol = "" <;> by_cases rep : comm.rep = "" <;> by_cases pre : comm.pre = "" <;>
    by_cases post : comm.post = "" <;> simp_all [columnOf]

/-- Only a record without a filled column has no text. -/
theorem merged_eq_empty {comm : GhidraComment} (silent : comm.merged = "") : comm.parts = [] := by
  cases parts : comm.parts with
  | nil => rfl
  | cons part rest =>
    exfalso
    have filled : part.1 ≠ "" := by
      have member : part ∈ comm.parts := by simp [parts]
      simpa using (List.mem_filter.mp member).2
    -- what is joined to a text leaves it there
    have stays : rest.foldl (fun text part => if text = "" then part.1 else text ++ "\n" ++ part.1) part.1 ≠ "" := by
      refine List.foldlRecOn rest _ (motive := fun text => text ≠ "") filled fun text nonempty other _ => ?_
      rw [if_neg nonempty]
      simp [nonempty]
    rw [GhidraComment.merged, parts, List.foldl_cons, if_pos rfl] at silent
    exact stays silent

/-- The rebase moves every record alike. -/
theorem at_rebased (rebase va : UInt64) :
    (fun comm : GhidraComment => decide (comm.addr + rebase = va + rebase)) = fun comm => decide (comm.addr = va) := by
  funext comm
  exact decide_eq_decide.mpr (UInt64.add_left_inj _)

section Import
variable (view : BinaryView) (data : GhidraDbExport)

theorem applyComment_field (rebase : UInt64) (s : ImportState) (comm : GhidraComment) :
    (SyncEngine.applyComment rebase s comm).result.addrToCommentField =
      if comm.merged = "" then s.result.addrToCommentField
      else s.result.addrToCommentField.set (comm.addr + rebase) comm.field := by
  have keyed (result : SyncResult) :
      (SyncEngine.recordCommentKey (comm.addr + rebase) comm result).addrToCommentField =
        result.addrToCommentField := by
    unfold SyncEngine.recordCommentKey
    split <;> rfl
  have plate (s : ImportState) :
      (SyncEngine.applyPlateComment (comm.addr + rebase) comm s).result.addrToCommentField =
        s.result.addrToCommentField := by
    unfold SyncEngine.applyPlateComment
    split
    · rfl
    · split <;> rfl
  unfold SyncEngine.applyComment
  dsimp only
  rw [plate, SyncEngine.applyAddressComment]
  dsimp only
  split
  · exact keyed _
  · dsimp only
    rw [keyed]

private theorem foldl_applyComment_field (rebase : UInt64) (comments : List GhidraComment) (s : ImportState) :
    (comments.foldl (SyncEngine.applyComment rebase) s).result.addrToCommentField =
      s.result.addrToCommentField.writeAll (fun comm => comm.addr + rebase) GhidraComment.field
        (comments.filter fun comm => comm.merged ≠ "") := by
  induction comments generalizing s with
  | nil => rfl
  | cons comm rest ih =>
    rw [List.foldl_cons, ih, applyComment_field]
    by_cases silent : comm.merged = "" <;> simp [silent]

/-- The columns recorded by an import, one per record with an address comment. -/
theorem applyToView_commentField :
    (SyncEngine.applyToView view data).2.addrToCommentField =
      Table.writeAll ∅ (fun comm => comm.addr + SyncEngine.rebaseOf view data) GhidraComment.field
        (data.comments.filter fun comm => comm.merged ≠ "") := by
  change (SyncEngine.applyMapped view data).result.addrToCommentField = _
  unfold SyncEngine.applyMapped
  dsimp only
  apply List.foldlRecOn data.funcFlags SyncEngine.applyFuncFlags
    (motive := fun s : ImportState => s.result.addrToCommentField =
      Table.writeAll ∅ (fun comm => comm.addr + SyncEngine.rebaseOf view data) GhidraComment.field
        (data.comments.filter fun comm => comm.merged ≠ ""))
  · rw [foldl_applyComment_field]
    congr 1
    apply List.foldlRecOn data.symbols _
      (motive := fun s : ImportState => s.result.addrToCommentField = ∅)
    · apply List.foldlRecOn data.memoryBlocks _
        (motive := fun s : ImportState => s.result.addrToCommentField = ∅)
      · rfl
      · intro s none mb _
        unfold SyncEngine.applyMemoryBlock
        split <;> exact none
    · exact fun s none sym _ => none
  · intro s same ff _
    unfold SyncEngine.applyFuncFlags
    split
    · exact same
    · split <;> exact same

variable {data}

/-- What is recorded for the only record at an address. -/
theorem recorded_field {comm : GhidraComment} {va : UInt64}
    (alone : data.comments.filter (fun other => other.addr = va) = [comm]) :
    ((SyncEngine.applyToView view data).2.addrToCommentField.lookup (va + SyncEngine.rebaseOf view data)).getD .eol =
      comm.field := by
  rw [applyToView_commentField, Table.lookup_writeAll_eq_getLast?, at_rebased, List.filter_comm, alone,
    List.filter_singleton]
  by_cases silent : comm.merged = ""
  · have eol : comm.field = .eol := by rw [GhidraComment.field, merged_eq_empty silent]
    simp [silent, eol]
  · simp [silent]

/-- The recorded column is the one the comment came from. -/
theorem recorded_column (plain : PlainComments data) (va : UInt64) :
    columnOf (((SyncEngine.applyToView view data).2.addrToCommentField.lookup
      (va + SyncEngine.rebaseOf view data)).getD .eol) = importedColumn data va := by
  unfold importedColumn
  cases found : data.comments.find? fun comm => comm.addr = va with
  | none =>
    have absent : ∀ comm ∈ data.comments.filter fun comm => comm.merged ≠ "",
        comm.addr + SyncEngine.rebaseOf view data ≠ va + SyncEngine.rebaseOf view data := by
      intro comm member same
      have other := List.find?_eq_none.mp found comm (List.mem_of_mem_filter member)
      exact other (by simpa using same)
    rw [applyToView_commentField, Table.lookup_writeAll_of_not_mem absent]
    rfl
  | some comm =>
    have member := List.mem_of_find?_eq_some found
    have here : comm.addr = va := by simpa using List.find?_some found
    have alone : data.comments.filter (fun other => other.addr = va) = [comm] := by
      refine List.perm_singleton.mp ((List.perm_ext_iff_of_nodup ?_ (List.nodup_singleton comm)).mpr fun other => ?_)
      · exact (List.Nodup.of_map _ plain.unique).filter _
      · rw [List.mem_filter, List.mem_singleton, decide_eq_true_eq]
        constructor
        · rintro ⟨listed, same⟩
          exact List.inj_on_of_nodup_map plain.unique listed member (same.trans here.symm)
        · rintro rfl
          exact ⟨member, here⟩
    rw [recorded_field view alone]
    exact field_of_single (plain.single comm member)

end Import

/-! ## What one entry writes -/

section Apply
variable {space : AddressSpace}

/-- The column the request names for an address. -/
def sentColumn (state : CheckinState) (addr : UInt64) : CommentType :=
  if addr ∈ state.addrToOriginalFuncComment then .plate
  else columnOf ((state.addrToCommentField.lookup addr).getD .eol)

variable {state : CheckinState} {rebase : UInt64}

def entryOf (state : CheckinState) (rebase : UInt64) (c : CommentChange) : Json :=
  CheckinJson.commentEntry rebase state.addrToOriginalFuncComment state.addrToCommentField c

theorem commentField_eq (addr : UInt64) :
    CheckinJson.commentField state.addrToOriginalFuncComment state.addrToCommentField addr =
      (sentColumn state addr).field := by
  unfold CheckinJson.commentField sentColumn
  split
  · rfl
  · cases (state.addrToCommentField.lookup addr).getD .eol <;> rfl

theorem field_inj {first second : CommentType} : first.field = second.field ↔ first = second := by
  cases first <;> cases second <;> decide

theorem entry_va (c : CommentChange) :
    (entryOf state rebase c).get? "va" = some (.str (toHex (c.addr - rebase))) := rfl

theorem entry_column (c : CommentChange) (type : CommentType) :
    (entryOf state rebase c).get? type.field =
      if type = sentColumn state c.addr then some (.str c.text) else none := by
  have notVa : (type.field == "va") = false := by cases type <;> decide
  have notKey : List.lookup type.field (optionalText "key" c.encodedKey) = none := by
    unfold optionalText
    split
    · rfl
    · cases type <;> rfl
  unfold entryOf CheckinJson.commentEntry Json.get?
  rw [commentField_eq]
  by_cases same : type = sentColumn state c.addr
  · subst same
    simp [List.lookup_cons, notVa]
  · have apart : (type.field == (sentColumn state c.addr).field) = false :=
      beq_eq_false_iff_ne.mpr fun equal => same (field_inj.mp equal)
    simp [List.lookup_cons, notVa, apart, same, notKey]

theorem setColumns_entry (addr : space.Address) (c : CommentChange) (nonempty : c.text ≠ "")
    (program : ProgramDB space) :
    setColumns addr (entryOf state rebase c) [.eol, .pre, .post, .plate, .repeatable] program =
      (setComment program addr (sentColumn state c.addr) (some c.text), true) := by
  simp only [setColumns, entry_column]
  cases sentColumn state c.addr <;> simp [Json.getAsString, nullIfEmpty, nonempty]

theorem commentAt_setComment {program : ProgramDB space} {addr : space.Address} {column type : CommentType}
    {text : String} {va : UInt64} :
    (setComment program addr column (some text)).commentAt va type =
      if va = addr.val ∧ type = column then some text else program.commentAt va type := by
  unfold ProgramDB.commentAt setComment
  cases found : space.getAddress va with
  | none =>
    have elsewhere := (AddressSpace.ne_of_getAddress_eq_none found addr).symm
    simp [elsewhere]
  | some here =>
    have same : here.val = va := AddressSpace.getAddress_eq_some.mp found
    subst same
    simp [Table.lookup_set, Subtype.ext_iff]

/-- A comment goes to the column the request names, if the program has the address. -/
theorem applyComment_entry (applied : Applied space) (c : CommentChange) (nonempty : c.text ≠ "") :
    ∃ next, applyComment applied (entryOf state rebase c) = some next ∧
      ∀ va type, next.program.commentAt va type =
        if space.contains va = true ∧ c.addr - rebase = va ∧ sentColumn state c.addr = type then some c.text
        else applied.program.commentAt va type := by
  have object : (entryOf state rebase c).isObject = true := rfl
  unfold applyComment
  simp only [object, entry_va, Json.getAsString, Option.bind_some, parseHexLong_toHex, Option.map_some,
    Bool.true_eq_false, if_false]
  refine ⟨_, rfl, ?_⟩
  intro va type
  cases found : space.getAddress (c.addr - rebase) with
  | none =>
    have outside : ¬(space.contains va = true ∧ c.addr - rebase = va ∧ sentColumn state c.addr = type) := by
      rintro ⟨inside, rfl, _⟩
      rw [AddressSpace.getAddress, dif_pos inside] at found
      cases found
    rw [if_neg outside]
  | some addr =>
    have here : addr.val = c.addr - rebase := AddressSpace.getAddress_eq_some.mp found
    dsimp only
    rw [setColumns_entry addr c nonempty, commentAt_setComment]
    congr 1
    rw [← here]
    apply propext
    constructor
    · rintro ⟨rfl, rfl⟩
      exact ⟨addr.property, rfl, rfl⟩
    · rintro ⟨_, rfl, rfl⟩
      exact ⟨rfl, rfl⟩

/-- A run of the entries: the last comment sent to a column decides it. -/
theorem applyComments_entries {comments : List CommentChange} (nonempty : ∀ c ∈ comments, c.text ≠ "")
    (applied : Applied space) :
    ∃ final, (comments.map (entryOf state rebase)).foldlM applyComment applied = some final ∧
      ∀ va type, space.contains va = true → final.program.commentAt va type =
        ((comments.reverse.find? fun c => c.addr - rebase = va ∧ sentColumn state c.addr = type).map
          CommentChange.text).or (applied.program.commentAt va type) := by
  induction comments generalizing applied with
  | nil => exact ⟨applied, rfl, by simp⟩
  | cons c rest ih =>
    obtain ⟨next, stepped, wrote⟩ :=
      @applyComment_entry _ state rebase applied c (nonempty c List.mem_cons_self)
    obtain ⟨final, ran, ends⟩ := ih (fun other member => nonempty other (List.mem_cons_of_mem c member)) next
    refine ⟨final, ?_, ?_⟩
    · rw [List.map_cons, List.foldlM_cons, stepped]
      exact ran
    · intro va type inside
      rw [ends va type inside, wrote, List.reverse_cons, List.find?_append]
      cases rest.reverse.find? fun c => c.addr - rebase = va ∧ sentColumn state c.addr = type with
      | some later => simp
      | none =>
        by_cases here : c.addr - rebase = va ∧ sentColumn state c.addr = type
        · simp [inside, here]
        · simp [inside, here]

end Apply

/-! ## A check-in of edited comments -/

/-- The comments array of the request a check-in of this view sends. -/
def sentComments (state : CheckinState) (edited : BinaryView) : List Json :=
  requestArray
    (CheckinJson.buildCheckinJson (rebase state edited) (collectCheckinChanges state edited)
      state.addrToOriginalFuncComment state.addrToCommentField)
    "comments"

/-- An entry of the request writes the text to the column. -/
def Sends (entries : List Json) (va : UInt64) (type : CommentType) (text : String) : Prop :=
  ∃ entry ∈ entries, entry.get? "va" = some (.str (toHex va)) ∧ entry.get? type.field = some (.str text)

section
variable (state : CheckinState) (edited : BinaryView) (data : GhidraDbExport)

/-- The address comment shown at one of Ghidra's addresses, where it is edited. -/
def addressEditAt (va : UInt64) : Option String := addressEdit state edited (va + rebase state edited)

/-- The function comment shown at one of Ghidra's addresses, where it is edited. -/
def functionEditAt (va : UInt64) : Option String := functionEdit state edited (va + rebase state edited)

/-- The import took a plate at the address for a function comment. -/
def PlateRecorded (va : UInt64) : Prop := va + rebase state edited ∈ state.addrToOriginalFuncComment

/-- Every edited comment is sent to its own column and reaches it, and nothing
else changes. -/
structure Routed {space : AddressSpace} (before after : ProgramDB space) : Prop where
  addressSent : ∀ va text, addressEditAt state edited va = some text →
    Sends (sentComments state edited) va (importedColumn data va) text
  functionSent : ∀ va text, functionEditAt state edited va = some text →
    Sends (sentComments state edited) va .plate text
  addressWritten : ∀ va text, addressEditAt state edited va = some text →
    after.commentAt va (importedColumn data va) = some text
  functionWritten : ∀ va text, functionEditAt state edited va = some text → after.commentAt va .plate = some text
  others : ∀ va type,
    ¬(type = importedColumn data va ∧ addressEditAt state edited va ≠ none) →
    ¬(type = .plate ∧ functionEditAt state edited va ≠ none) → after.commentAt va type = before.commentAt va type

/-- One comment at most is edited at the address, and it is the one whose column
the request names. -/
def RoutableAt (space : AddressSpace) (va : UInt64) : Prop :=
  (addressEditAt state edited va ≠ none → ¬PlateRecorded state edited va ∧ space.contains va = true) ∧
    (functionEditAt state edited va ≠ none →
      PlateRecorded state edited va ∧ addressEditAt state edited va = none ∧ space.contains va = true)

end

section
variable {state : CheckinState} {edited : BinaryView} {data : GhidraDbExport} {space : AddressSpace}

theorem importedColumn_ne_plate (va : UInt64) : importedColumn data va ≠ .plate := by
  unfold importedColumn
  split
  · unfold filledColumn
    repeat' split
    all_goals exact CommentType.noConfusion
  · exact CommentType.noConfusion

theorem toHex_injective {first second : UInt64} (same : toHex first = toHex second) : first = second := by
  have parsed := parseHexLong_toHex first
  rw [same, parseHexLong_toHex, Option.some.injEq] at parsed
  exact parsed.symm

theorem sentComments_eq (imported : state.checkinItem ≠ "") :
    sentComments state edited = (collectComments state edited).map (entryOf state (rebase state edited)) := by
  unfold sentComments collectCheckinChanges
  rw [if_neg imported]
  rfl

theorem sends_iff (imported : state.checkinItem ≠ "") {va : UInt64} {type : CommentType} {text : String} :
    Sends (sentComments state edited) va type text ↔
      (addressEditAt state edited va).or (functionEditAt state edited va) = some text ∧
        type = sentColumn state (va + rebase state edited) := by
  unfold Sends
  rw [sentComments_eq imported]
  constructor
  · rintro ⟨entry, member, atVa, column⟩
    obtain ⟨c, collected, rfl⟩ := List.mem_map.mp member
    rw [entry_va, Option.some.injEq, Json.str.injEq] at atVa
    have here : c.addr = va + rebase state edited := by
      rw [← toHex_injective atVa, UInt64.sub_add_cancel]
    rw [entry_column, here] at column
    split at column
    · rename_i named
      cases column
      have edit := (mem_collectComments.mp collected).2
      rw [here] at edit
      exact ⟨edit, named⟩
    · cases column
  · rintro ⟨edit, rfl⟩
    refine ⟨entryOf state (rebase state edited)
        (commentChange state (va + rebase state edited) text), List.mem_map_of_mem ?_, ?_, ?_⟩
    · exact mem_collectComments.mpr ⟨rfl, edit⟩
    · rw [entry_va, commentChange, UInt64.add_sub_cancel]
    · rw [entry_column, commentChange, if_pos rfl]

theorem functionEdit_nonempty {view : BinaryView} {addr : UInt64} {text : String}
    (edit : functionEdit state view addr = some text) : text ≠ "" := by
  unfold functionEdit at edit
  obtain ⟨func, found, rfl⟩ := Option.map_eq_some_iff.mp edit
  have shown := List.find?_some found
  simp only [editedAt, Bool.and_eq_true, decide_eq_true_eq] at shown
  exact shown.1.2

theorem collected_nonempty {c : CommentChange} (collected : c ∈ collectComments state edited) : c.text ≠ "" := by
  have edit := (mem_collectComments.mp collected).2
  cases address : addressEdit state edited c.addr with
  | some text =>
    rw [address, Option.some_or, Option.some.injEq] at edit
    subst edit
    exact (addressEdit_eq_some.mp address).2.1
  | none =>
    rw [address, Option.none_or] at edit
    exact functionEdit_nonempty edit

/-- The comments of a program after a check-in: at each address the edit that was
sent, in the column that was sent with it. -/
theorem applyComments_sent (imported : state.checkinItem ≠ "") (program : ProgramDB space) :
    ∃ final, applyComments program (sentComments state edited) = some final ∧
      ∀ va type, final.program.commentAt va type =
        if space.contains va = true ∧ type = sentColumn state (va + rebase state edited) then
          ((addressEditAt state edited va).or (functionEditAt state edited va)).or (program.commentAt va type)
        else program.commentAt va type := by
  obtain ⟨final, ran, ends⟩ := @applyComments_entries space state (rebase state edited)
    (collectComments state edited) (fun c => collected_nonempty) { program }
  refine ⟨final, by rw [sentComments_eq imported]; exact ran, ?_⟩
  intro va type
  by_cases inside : space.contains va = true
  · rw [ends va type inside]
    cases found : (collectComments state edited).reverse.find? fun c =>
        c.addr - rebase state edited = va ∧ sentColumn state c.addr = type with
    | some c =>
      have collected := List.mem_reverse.mp (List.mem_of_find?_eq_some found)
      obtain ⟨atVa, column⟩ : c.addr - rebase state edited = va ∧ sentColumn state c.addr = type := by
        simpa using List.find?_some found
      have here : va + rebase state edited = c.addr := by rw [← atVa, UInt64.sub_add_cancel]
      have edit := (mem_collectComments.mp collected).2
      unfold addressEditAt functionEditAt
      rw [here, edit, if_pos ⟨inside, column.symm⟩]
      rfl
    | none =>
      by_cases named : type = sentColumn state (va + rebase state edited)
      · have unedited : (addressEditAt state edited va).or (functionEditAt state edited va) = none := by
          cases edit : (addressEditAt state edited va).or (functionEditAt state edited va) with
          | none => rfl
          | some text =>
            have collected : commentChange state (va + rebase state edited) text ∈ collectComments state edited :=
              mem_collectComments.mpr ⟨rfl, edit⟩
            have missed := List.find?_eq_none.mp found _ (List.mem_reverse.mpr collected)
            rw [commentChange, UInt64.add_sub_cancel] at missed
            simp [named] at missed
        rw [if_pos ⟨inside, named⟩, unedited]
        rfl
      · rw [if_neg fun both => named both.2]
        rfl
  · have outside (program : ProgramDB space) : program.commentAt va type = none := by
      unfold ProgramDB.commentAt AddressSpace.getAddress
      rw [dif_neg inside]
      rfl
    rw [outside, if_neg fun both => inside both.1, outside]

theorem contains_of_commentAt {program : ProgramDB space} {va : UInt64} {type : CommentType} {text : String}
    (shown : program.commentAt va type = some text) : space.contains va = true := by
  unfold ProgramDB.commentAt at shown
  obtain ⟨addr, found, _⟩ := Option.bind_eq_some_iff.mp shown
  rw [← AddressSpace.getAddress_eq_some.mp found]
  exact addr.property

section Columns
variable (columns : ∀ va, columnOf ((state.addrToCommentField.lookup (va + rebase state edited)).getD .eol) =
  importedColumn data va)
include columns

theorem sentColumn_eq (va : UInt64) :
    (PlateRecorded state edited va → sentColumn state (va + rebase state edited) = .plate) ∧
      (¬PlateRecorded state edited va → sentColumn state (va + rebase state edited) = importedColumn data va) := by
  unfold sentColumn PlateRecorded
  rw [columns]
  exact ⟨fun plate => if_pos plate, fun noPlate => if_neg noPlate⟩

/-- What was sent and where it went shows which comments were edited. -/
theorem routable_of_routed (imported : state.checkinItem ≠ "") {before after : ProgramDB space}
    (routed : Routed state edited data before after) (va : UInt64) : RoutableAt state edited space va := by
  have address {text : String} (edit : addressEditAt state edited va = some text) :
      ¬PlateRecorded state edited va := by
    intro plate
    have named := ((sends_iff imported).mp (routed.addressSent va text edit)).2
    rw [(sentColumn_eq columns va).1 plate] at named
    exact importedColumn_ne_plate va named
  constructor
  · intro edits
    obtain ⟨text, edit⟩ := Option.ne_none_iff_exists'.mp edits
    exact ⟨address edit, contains_of_commentAt (routed.addressWritten va text edit)⟩
  · intro edits
    obtain ⟨text, edit⟩ := Option.ne_none_iff_exists'.mp edits
    have plate : PlateRecorded state edited va := by
      by_contra noPlate
      have named := ((sends_iff imported).mp (routed.functionSent va text edit)).2
      rw [(sentColumn_eq columns va).2 noPlate] at named
      exact importedColumn_ne_plate va named.symm
    refine ⟨plate, ?_, contains_of_commentAt (routed.functionWritten va text edit)⟩
    cases both : addressEditAt state edited va with
    | none => rfl
    | some other => exact absurd plate (address both)

/-- One edit at most, named by the right column: it goes there and nowhere else. -/
theorem routed_of_routable (imported : state.checkinItem ≠ "") {before : ProgramDB space}
    (routable : ∀ va, RoutableAt state edited space va) :
    ∃ applied, applyComments before (sentComments state edited) = some applied ∧
      Routed state edited data before applied.program := by
  obtain ⟨applied, ran, ends⟩ := @applyComments_sent state edited space imported before
  have address (va : UInt64) (text : String) (edit : addressEditAt state edited va = some text) :
      space.contains va = true ∧ importedColumn data va = sentColumn state (va + rebase state edited) := by
    obtain ⟨noPlate, inside⟩ := (routable va).1 (by simp [edit])
    exact ⟨inside, ((sentColumn_eq columns va).2 noPlate).symm⟩
  have function (va : UInt64) (text : String) (edit : functionEditAt state edited va = some text) :
      space.contains va = true ∧ CommentType.plate = sentColumn state (va + rebase state edited) ∧
        addressEditAt state edited va = none := by
    obtain ⟨plate, unedited, inside⟩ := (routable va).2 (by simp [edit])
    exact ⟨inside, ((sentColumn_eq columns va).1 plate).symm, unedited⟩
  refine ⟨applied, ran, ?_, ?_, ?_, ?_, ?_⟩
  · intro va text edit
    exact (sends_iff imported).mpr ⟨by rw [edit, Option.some_or], (address va text edit).2⟩
  · intro va text edit
    obtain ⟨_, named, unedited⟩ := function va text edit
    exact (sends_iff imported).mpr ⟨by rw [unedited, Option.none_or, edit], named⟩
  · intro va text edit
    rw [ends, if_pos (address va text edit), edit]
    rfl
  · intro va text edit
    obtain ⟨inside, named, unedited⟩ := function va text edit
    rw [ends, if_pos ⟨inside, named⟩, unedited, edit]
    rfl
  · intro va type notAddress notFunction
    rw [ends]
    split
    · rename_i here
      -- the column that was sent belongs to an edit, and there is none
      have unaddressed : addressEditAt state edited va = none := by
        cases edit : addressEditAt state edited va with
        | none => rfl
        | some text => exact absurd ⟨here.2.trans (address va text edit).2.symm, by simp [edit]⟩ notAddress
      have unfunctioned : functionEditAt state edited va = none := by
        cases edit : functionEditAt state edited va with
        | none => rfl
        | some text => exact absurd ⟨here.2.trans (function va text edit).2.1.symm, by simp [edit]⟩ notFunction
      rw [unaddressed, unfunctioned]
      rfl
    · rfl

end Columns

end

/-- The state stored after the import of an export. -/
def importedState (view : BinaryView) (data : GhidraDbExport) (repo folder item : String) : CheckinState :=
  CheckinState.store (SyncEngine.applyToView view data).2 repo folder item

/-- A check-in of a view edited after an import sends every edited comment to its
own column and leaves every other column alone, exactly when nowhere both comments
of an address are edited, an address comment only where the import recorded no
plate, and a function comment only where it did. -/
theorem edited_comments_routed_iff {space : AddressSpace} (view edited : BinaryView) (data : GhidraDbExport)
    (repo folder item : String) (program : ProgramDB space) (plain : PlainComments data) (imported : item ≠ "")
    (sameStart : edited.start = view.start) :
    (∃ applied,
      applyComments program (sentComments (importedState view data repo folder item) edited) = some applied ∧
        Routed (importedState view data repo folder item) edited data program applied.program) ↔
      ∀ va, RoutableAt (importedState view data repo folder item) edited space va := by
  have columns (va : UInt64) :
      columnOf (((importedState view data repo folder item).addrToCommentField.lookup
        (va + rebase (importedState view data repo folder item) edited)).getD .eol) = importedColumn data va := by
    have moved : rebase (importedState view data repo folder item) edited = SyncEngine.rebaseOf view data :=
      SyncEngine.rebase_store_later data repo folder item sameStart
    rw [moved]
    exact recorded_column view plain va
  constructor
  · rintro ⟨applied, _, routed⟩
    exact routable_of_routed columns imported routed
  · exact routed_of_routable columns imported

/-- One record without a plate. -/
def eolExport : GhidraDbExport := { comments := [{ addr := 0x401000, eol := "old" }] }

/-- The view after the import, with its address comment edited. -/
def rewordedEol : BinaryView := { comments := Table.set ∅ 0x401000 "new" }

/-- An edited address comment goes back to its column. -/
theorem edited_eol_is_routed :
    ∃ applied, applyComments ({} : ProgramDB {})
        (sentComments (importedState {} eolExport "r" "/" "prog") rewordedEol) = some applied ∧
      Routed (importedState {} eolExport "r" "/" "prog") rewordedEol eolExport {} applied.program := by
  refine (edited_comments_routed_iff {} rewordedEol eolExport "r" "/" "prog" {} ⟨by decide, by decide⟩
    (by decide) rfl).mpr ?_
  intro va
  refine ⟨fun _ => ⟨?_, rfl⟩, fun edits => absurd rfl edits⟩
  have none : (importedState {} eolExport "r" "/" "prog").addrToOriginalFuncComment = ∅ := rfl
  rw [PlateRecorded, none]
  exact AList.notMem_empty _

/-- A record with an end-of-line comment and a plate, at the start of a function. -/
def headedExport : GhidraDbExport :=
  { comments := [{ addr := 0x401000, eol := "old", plate := "header" }] }

def oneFunction (comment : String) : BinaryView := { functions := [{ start := 0x401000, comment }] }

/-- The view after the import, with its address comment edited. -/
def reworded : BinaryView := { oneFunction "header" with comments := Table.set ∅ 0x401000 "new" }

/-- The program the records were exported from. -/
def headedProgram : ProgramDB {} :=
  { comments :=
      Table.set (Table.set ∅ (AddressSpace.flat 0x401000, .eol) "old") (AddressSpace.flat 0x401000, .plate) "header" }

/-- Only the address comment is edited, and it overwrites the plate. -/
theorem edited_eol_overwrites_plate :
    addressEditAt (importedState (oneFunction "") headedExport "r" "/" "prog") reworded 0x401000 = some "new" ∧
      functionEditAt (importedState (oneFunction "") headedExport "r" "/" "prog") reworded 0x401000 = none ∧
      (applyComments headedProgram
        (sentComments (importedState (oneFunction "") headedExport "r" "/" "prog") reworded)).map
          (fun applied => (applied.program.commentAt 0x401000 .eol, applied.program.commentAt 0x401000 .plate)) =
        some (some "old", some "new") := by
  decide +kernel

end GhidraBridge.CommentRouting
