import GhidraBridge.CommentRouting
import GhidraBridge.ImportPreserves
import GhidraBridge.ImportRoundTrip

/-! The text of a comment on its way through both programs. The import joins four
columns of a record into one text, the check-in writes the edited text into one of
them and leaves the rest, so the next import joins the edit with what was left. -/
namespace GhidraBridge.CommentRoundTrip
open Lib CheckinState CommentEdits CommentRouting ProgramApplier DatabaseExporter DbExportJson ImportRoundTrip

/-! ## One column rewritten -/

/-- The text of a column. -/
def column (comm : GhidraComment) : CommentType → String
  | .eol => comm.eol
  | .pre => comm.pre
  | .post => comm.post
  | .plate => comm.plate
  | .repeatable => comm.rep

/-- A record with the text of one column replaced. -/
def withColumn (comm : GhidraComment) (type : CommentType) (text : String) : GhidraComment :=
  match type with
  | .eol => { comm with eol := text }
  | .pre => { comm with pre := text }
  | .post => { comm with post := text }
  | .plate => { comm with plate := text }
  | .repeatable => { comm with rep := text }

theorem column_withColumn (comm : GhidraComment) (type other : CommentType) (text : String) :
    column (withColumn comm type text) other = if other = type then text else column comm other := by
  cases type <;> cases other <;> rfl

/-- The joined text depends on the four columns only. -/
theorem merged_eq_of_columns {first second : GhidraComment} (same : ∀ type, column first type = column second type) :
    first.merged = second.merged := by
  have eol : first.eol = second.eol := same .eol
  have rep : first.rep = second.rep := same .repeatable
  have pre : first.pre = second.pre := same .pre
  have post : first.post = second.post := same .post
  unfold GhidraComment.merged GhidraComment.parts
  rw [eol, rep, pre, post]

section Written
variable {comm : GhidraComment} {text : String}

/-- The text is written to the only column there is. -/
theorem merged_withColumn_of_single (filled : text ≠ "") (single : comm.parts.length ≤ 1) :
    (withColumn comm (columnOf comm.field) text).merged = text := by
  rw [field_of_single single]
  unfold GhidraComment.parts at single
  unfold filledColumn GhidraComment.merged GhidraComment.parts
  by_cases eol : comm.eol = "" <;> by_cases rep : comm.rep = "" <;> by_cases pre : comm.pre = "" <;>
    by_cases post : comm.post = "" <;> simp_all [withColumn]

/-- The only column of a comment that shows a text is filled. -/
theorem column_ne_of_single (single : comm.parts.length ≤ 1) (shown : comm.merged ≠ "") :
    column comm (columnOf comm.field) ≠ "" := by
  rw [field_of_single single]
  unfold GhidraComment.merged GhidraComment.parts at shown
  unfold filledColumn
  by_cases eol : comm.eol = "" <;> by_cases rep : comm.rep = "" <;> by_cases pre : comm.pre = "" <;>
    by_cases post : comm.post = "" <;> simp_all [column]

/-! ### Text joined from several columns -/

/-- The lines a text is followed by. -/
def following (parts : List (String × CommentField)) : String :=
  parts.foldl (fun text part => text ++ "\n" ++ part.1) ""

theorem foldl_following (parts : List (String × CommentField)) (text : String) :
    parts.foldl (fun text part => text ++ "\n" ++ part.1) text = text ++ following parts := by
  induction parts using List.reverseRecOn with
  | nil => simp [following]
  | append_singleton rest part ih =>
    rw [following, List.foldl_append, List.foldl_append, ih]
    simp [following, String.append_assoc]

/-- A text that is not empty stays in front of the parts joined to it. -/
theorem foldl_join {text : String} (filled : text ≠ "") (parts : List (String × CommentField)) :
    parts.foldl (fun text part => if text = "" then part.1 else text ++ "\n" ++ part.1) text =
      text ++ following parts := by
  rw [← foldl_following]
  induction parts generalizing text with
  | nil => rfl
  | cons part rest ih =>
    have longer : text ++ "\n" ++ part.1 ≠ "" := by simp [filled]
    rw [List.foldl_cons, List.foldl_cons, if_neg filled, ih longer]

theorem merged_of_parts {part : String × CommentField} {rest : List (String × CommentField)}
    (parts : comm.parts = part :: rest) : comm.merged = part.1 ++ following rest := by
  have filled : part.1 ≠ "" := by
    have member : part ∈ comm.parts := parts ▸ List.mem_cons_self
    simpa using (List.mem_filter.mp member).2
  rw [GhidraComment.merged, parts, List.foldl_cons, if_pos rfl]
  exact foldl_join filled rest

/-- The columns joined after the first one. -/
def otherParts (comm : GhidraComment) : List (String × CommentField) :=
  [(comm.rep, .rep), (comm.pre, .pre), (comm.post, .post)].filter (·.1 ≠ "")

theorem parts_eq (comm : GhidraComment) :
    comm.parts = if comm.eol = "" then otherParts comm else (comm.eol, .eol) :: otherParts comm := by
  unfold GhidraComment.parts otherParts
  rw [List.filter_cons]
  by_cases eol : comm.eol = "" <;> simp [eol]

theorem merged_withColumn_eol (filled : text ≠ "") :
    (withColumn comm .eol text).merged = text ++ following (otherParts comm) := by
  have parts : (withColumn comm .eol text).parts = (text, .eol) :: otherParts comm := by
    rw [parts_eq, withColumn, if_neg filled]
    rfl
  exact merged_of_parts parts

theorem field_of_several (several : 1 < comm.parts.length) : comm.field = .eol := by
  unfold GhidraComment.field
  split
  · rename_i part alone
    rw [alone] at several
    simp at several
  · rfl

theorem otherParts_of_several (several : 1 < comm.parts.length) : otherParts comm ≠ [] := by
  intro alone
  rw [parts_eq, alone] at several
  split at several <;> simp at several

theorem following_length {part : String × CommentField} {rest : List (String × CommentField)} :
    (following (part :: rest)).length = 1 + part.1.length + (following rest).length := by
  have cut : following (part :: rest) = ("" ++ "\n" ++ part.1) ++ following rest :=
    (List.foldl_cons ..).trans (foldl_following rest _)
  have newline : "\n".length = 1 := rfl
  rw [cut]
  simp [String.length_append, newline]

/-- An edit of joined text comes back with the other columns after it. -/
theorem merged_withColumn_of_several (filled : text ≠ "") (several : 1 < comm.parts.length) :
    (withColumn comm (columnOf comm.field) text).merged ≠ text := by
  rw [field_of_several several, columnOf, merged_withColumn_eol filled]
  obtain ⟨part, rest, others⟩ := List.exists_cons_of_ne_nil (otherParts_of_several several)
  intro same
  have lengths := congrArg String.length same
  rw [others, String.length_append, following_length] at lengths
  omega

/-- A text in the column of an untouched comment shows only where it is the
column's own. -/
theorem merged_withColumn_eq_iff (filled : text ≠ "") (shown : comm.merged ≠ "") :
    (withColumn comm (columnOf comm.field) text).merged = comm.merged ↔
      text = column comm (columnOf comm.field) := by
  have own (type : CommentType) : withColumn comm type (column comm type) = comm := by cases type <;> rfl
  constructor
  · intro same
    by_cases several : 1 < comm.parts.length
    · rw [field_of_several several, columnOf, merged_withColumn_eol filled] at same
      rw [field_of_several several]
      show text = comm.eol
      by_cases empty : comm.eol = ""
      · -- the other columns are the whole text, and now something stands before them
        exfalso
        obtain ⟨part, rest, others⟩ := List.exists_cons_of_ne_nil (otherParts_of_several several)
        have whole : comm.merged = part.1 ++ following rest :=
          merged_of_parts (by rw [parts_eq, if_pos empty, others])
        have lengths := congrArg String.length same
        rw [whole, others, String.length_append, String.length_append, following_length] at lengths
        omega
      · have whole := @merged_withColumn_eol comm comm.eol empty
        rw [show withColumn comm .eol comm.eol = comm from rfl] at whole
        exact String.append_left_inj _ |>.mp (same.trans whole)
    · have single : comm.parts.length ≤ 1 := Nat.le_of_not_lt several
      have ownText := column_ne_of_single single shown
      rw [merged_withColumn_of_single filled single] at same
      have itself := @merged_withColumn_of_single comm _ ownText single
      rw [own] at itself
      exact same.trans itself
  · rintro rfl
    rw [own]

theorem merged_withColumn_ne (filled : text ≠ "") : (withColumn comm (columnOf comm.field) text).merged ≠ "" := by
  by_cases several : 1 < comm.parts.length
  · rw [field_of_several several, columnOf, merged_withColumn_eol filled]
    simp [filled]
  · rw [merged_withColumn_of_single filled (Nat.le_of_not_lt several)]
    exact filled

end Written

/-! ## There and back -/

/-- A record without a plate, the only one at its address, imported from a program and
then edited in Binary Ninja. -/
structure EditedComment (space : AddressSpace) where
  /-- Where the record stands in the program's database. -/
  addrMap : Table Int64 Int64
  key : Int64
  ram : 0 ≤ decode key addrMap
  comm : GhidraComment
  placed : comm.addr = (decode key addrMap).toUInt64
  noPlate : comm.plate = ""
  data : GhidraDbExport
  alone : data.comments.filter (fun other => other.addr = comm.addr) = [comm]
  program : ProgramDB space
  mapped : space.contains comm.addr = true
  held : ∀ type, emptyIfNull (program.commentAt comm.addr type) = column comm type
  view : BinaryView
  /-- The view when it is checked in. -/
  edited : BinaryView
  sameStart : edited.start = view.start
  text : String
  filled : text ≠ ""
  shown : edited.getCommentForAddress (comm.addr + SyncEngine.rebaseOf view data) = text
  repo : String
  folder : String
  item : String
  stored : item ≠ ""

/-- The columns the program has at an offset, as a row of the Comments table. -/
def rowAt {space : AddressSpace} (program : ProgramDB space) (va : UInt64) : CommentRow where
  eol := program.commentAt va .eol
  pre := program.commentAt va .pre
  post := program.commentAt va .post
  plate := program.commentAt va .plate
  rep := program.commentAt va .repeatable

/-- An export of the program saved after the check-in, and a view without a comment
at the address to import it into. -/
structure Readback {space : AddressSpace} (edit : EditedComment space) (program : ProgramDB space) where
  db : ProgramTables
  sameMap : db.addressMap = edit.addrMap
  saved : db.comments.lookup edit.key = some (rowAt program edit.comm.addr)
  alone : ∀ key row, db.comments.lookup key = some row →
    decode key edit.addrMap = decode edit.key edit.addrMap → key = edit.key
  opened : Option OpenedMemory
  id : Int32
  data : GhidraDbExport
  parsed : parseDbExportJson (openDbResponse id (exportDatabase db opened)) = .ok data
  fresh : BinaryView
  blank : fresh.getCommentForAddress (edit.comm.addr + SyncEngine.rebaseOf fresh data) = ""

/-- The comment shown after the second import. -/
def Readback.shown {space : AddressSpace} {edit : EditedComment space} {program : ProgramDB space}
    (back : Readback edit program) : String :=
  (SyncEngine.applyToView back.fresh back.data).1.getCommentForAddress
    (edit.comm.addr + SyncEngine.rebaseOf back.fresh back.data)

/-- The texts of the records at the address of a record that is alone there. -/
theorem textsAt_of_alone {comments : List GhidraComment} {comm : GhidraComment} {va : UInt64}
    (alone : comments.filter (fun other => other.addr = va) = [comm]) (rebase : UInt64) :
    ImportPreserves.textsAt rebase comments (va + rebase) = if comm.merged = "" then [] else [comm.merged] := by
  rw [ImportPreserves.textsAt, at_rebased, List.filter_comm, alone, List.filter_singleton]
  by_cases silent : comm.merged = "" <;> simp [silent]

section Readback
variable {space : AddressSpace} {edit : EditedComment space} {program : ProgramDB space}

/-- The row is exported, and no other record stands at its address. -/
theorem Readback.written_alone (back : Readback edit program)
    (filled : commentColumns (rowAt program edit.comm.addr) ≠ []) :
    back.data.comments.filter (fun other => other.addr = edit.comm.addr) =
      [commentRecord edit.addrMap edit.key (rowAt program edit.comm.addr)] := by
  obtain ⟨out, parsed, comments⟩ := @response_comments back.db back.opened back.id
  rw [back.parsed, Except.ok.injEq] at parsed
  subst parsed
  rw [comments, writtenComments, List.filter_map, List.filter_filter, back.sameMap]
  have walked := @Table.filter_items_eq_singleton _ _ _ back.db.comments edit.key _
    (fun entry => ((fun other : GhidraComment => decide (other.addr = edit.comm.addr)) ∘
      fun entry => commentRecord edit.addrMap entry.1 entry.2) entry &&
        decide (commentColumns entry.2 ≠ [] ∧ 0 ≤ decode entry.1 edit.addrMap)) back.saved ?_ ?_
  · rw [walked]
    rfl
  · have here : (decode edit.key edit.addrMap).toUInt64 = edit.comm.addr := edit.placed.symm
    simp [commentRecord, here, edit.ram, filled]
  · intro key row held kept
    rw [Bool.and_eq_true, decide_eq_true_eq] at kept
    have same : (decode key edit.addrMap).toUInt64 = edit.comm.addr := of_decide_eq_true kept.1
    have bits : (decode key edit.addrMap).toBitVec = (decode edit.key edit.addrMap).toBitVec :=
      congrArg UInt64.toBitVec (same.trans edit.placed)
    exact back.alone key row held (Int64.toBitVec_inj.mp bits)

/-- The second import shows the columns of the saved row. -/
theorem Readback.shown_eq (back : Readback edit program)
    (filled : commentColumns (rowAt program edit.comm.addr) ≠ []) :
    back.shown = (commentRecord edit.addrMap edit.key (rowAt program edit.comm.addr)).merged := by
  have alone := back.written_alone filled
  rw [shown, ImportPreserves.applyToView_getCommentForAddress, if_pos back.blank, textsAt_of_alone alone]
  split
  · rename_i silent
    exact silent.symm
  · rfl

end Readback

namespace EditedComment
variable {space : AddressSpace} (edit : EditedComment space)

/-- The state stored by the import. -/
def state : CheckinState := importedState edit.view edit.data edit.repo edit.folder edit.item

/-- The address the record has in the view. -/
def addr : UInt64 := edit.comm.addr + SyncEngine.rebaseOf edit.view edit.data

/-- The first comment of a function starting at the address. -/
def functionText : Option String :=
  (edit.edited.functions.find? fun func => func.start = edit.addr && func.comment ≠ "").map BNFunction.comment

/-- What is sent for the address. -/
def sentText : Option String := if edit.text = edit.comm.merged then edit.functionText else some edit.text

/-- The record after the check-in. -/
def afterCheckin : GhidraComment :=
  match edit.sentText with
  | some text => withColumn edit.comm (columnOf edit.comm.field) text
  | none => edit.comm

/-- An edit that changes the text needs a record with one column. Where the text is
the imported one, a function comment at the address is sent in its place, and has to
be what its column holds. -/
def Returns : Prop :=
  (edit.text ≠ edit.comm.merged → edit.comm.parts.length ≤ 1) ∧
    (edit.text = edit.comm.merged → ∀ text, edit.functionText = some text →
      text = column edit.comm (columnOf edit.comm.field))

theorem rebase_eq : rebase edit.state edit.edited = SyncEngine.rebaseOf edit.view edit.data :=
  SyncEngine.rebase_store_later edit.data edit.repo edit.folder edit.item edit.sameStart

theorem only {other : GhidraComment} (listed : other ∈ edit.data.comments) (same : other.addr = edit.comm.addr) :
    other = edit.comm := by
  have kept : other ∈ edit.data.comments.filter fun other => other.addr = edit.comm.addr :=
    List.mem_filter.mpr ⟨listed, decide_eq_true same⟩
  rw [edit.alone] at kept
  exact List.mem_singleton.mp kept

theorem plate_unrecorded : edit.addr ∉ edit.state.addrToOriginalFuncComment := by
  intro recorded
  have maps := congrArg SyncResult.addrToOriginalFuncComment
    (WritebackMaps.applyToView_baseline edit.view edit.data)
  change (SyncEngine.applyToView edit.view edit.data).2.addrToOriginalFuncComment = _ at maps
  change edit.addr ∈ (SyncEngine.applyToView edit.view edit.data).2.addrToOriginalFuncComment at recorded
  rw [maps] at recorded
  obtain ⟨seen, member, plate, here⟩ := (WritebackMaps.mem_funcComment_buildWritebackMaps _ _ _).mp recorded
  obtain ⟨other, listed, rfl⟩ := List.mem_map.mp member
  have itself := edit.only listed ((UInt64.add_left_inj _).mp here)
  subst itself
  refine plate ?_
  show (if _ then edit.comm.plate else "") = ""
  rw [edit.noPlate, ite_self]

theorem baseline_eq : textAt edit.state.addrToOriginalComment edit.addr = edit.comm.merged := by
  have recorded := ImportPreserves.lookup_addrToOriginalComment edit.view edit.data edit.addr
  rw [addr, textsAt_of_alone edit.alone] at recorded
  show ((SyncEngine.applyToView edit.view edit.data).2.addrToOriginalComment.lookup edit.addr).getD "" = _
  rw [addr, recorded]
  by_cases silent : edit.comm.merged = "" <;> simp [silent]

/-- The request names the column the text was imported from. -/
theorem sentColumn_eq : sentColumn edit.state edit.addr = columnOf edit.comm.field := by
  rw [sentColumn, if_neg edit.plate_unrecorded]
  exact congrArg columnOf (recorded_field edit.view edit.alone)

theorem addressEdit_eq :
    addressEditAt edit.state edit.edited edit.comm.addr =
      if edit.text = edit.comm.merged then none else some edit.text := by
  rw [addressEditAt, edit.rebase_eq, addressEdit]
  show (if edit.edited.getCommentForAddress edit.addr = "" ∨
    edit.edited.getCommentForAddress edit.addr = textAt edit.state.addrToOriginalComment edit.addr then none
    else some (edit.edited.getCommentForAddress edit.addr)) = _
  rw [edit.baseline_eq, addr, edit.shown]
  simp only [edit.filled, false_or]

theorem functionEdit_eq : functionEditAt edit.state edit.edited edit.comm.addr = edit.functionText := by
  have blank : textAt edit.state.addrToOriginalFuncComment edit.addr = "" := by
    rw [textAt, AList.lookup_eq_none.mpr edit.plate_unrecorded]
    rfl
  have commented : editedAt edit.state edit.addr = fun func => func.start = edit.addr && func.comment ≠ "" := by
    funext func
    rw [editedAt, blank, Bool.and_assoc, Bool.and_self]
  rw [functionEditAt, edit.rebase_eq, functionEdit]
  show (edit.edited.functions.find? (editedAt edit.state edit.addr)).map BNFunction.comment = _
  rw [commented]
  rfl

/-- After the check-in the program's columns are those of the rewritten record. -/
theorem checkin_columns :
    ∃ applied, applyComments edit.program (sentComments edit.state edit.edited) = some applied ∧
      ∀ type, emptyIfNull (applied.program.commentAt edit.comm.addr type) = column edit.afterCheckin type := by
  obtain ⟨applied, ran, ends⟩ := @applyComments_sent edit.state edit.edited space edit.stored edit.program
  refine ⟨applied, ran, fun type => ?_⟩
  have sent : (addressEditAt edit.state edit.edited edit.comm.addr).or
      (functionEditAt edit.state edit.edited edit.comm.addr) = edit.sentText := by
    rw [edit.addressEdit_eq, edit.functionEdit_eq, sentText]
    split <;> rfl
  have named : sentColumn edit.state (edit.comm.addr + rebase edit.state edit.edited) =
      columnOf edit.comm.field := by
    rw [edit.rebase_eq]
    exact edit.sentColumn_eq
  rw [ends, sent, named, afterCheckin]
  cases edit.sentText with
  | none => rw [Option.none_or, ite_self, edit.held]
  | some text =>
    dsimp only
    rw [column_withColumn, Option.some_or]
    by_cases here : type = columnOf edit.comm.field
    · rw [if_pos ⟨edit.mapped, here⟩, if_pos here]
      rfl
    · rw [if_neg fun both => here both.2, if_neg here, edit.held]

theorem functionText_ne {text : String} (found : edit.functionText = some text) : text ≠ "" := by
  obtain ⟨func, first, rfl⟩ := Option.map_eq_some_iff.mp found
  have commented := List.find?_some first
  simp only [Bool.and_eq_true, decide_eq_true_eq] at commented
  exact commented.2

theorem afterCheckin_shows : edit.afterCheckin.merged ≠ "" := by
  unfold afterCheckin sentText
  by_cases same : edit.text = edit.comm.merged
  · rw [if_pos same]
    cases found : edit.functionText with
    | none => exact same ▸ edit.filled
    | some text => exact merged_withColumn_ne (edit.functionText_ne found)
  · rw [if_neg same]
    exact merged_withColumn_ne edit.filled

theorem afterCheckin_merged_iff : edit.afterCheckin.merged = edit.text ↔ edit.Returns := by
  unfold afterCheckin sentText Returns
  by_cases same : edit.text = edit.comm.merged
  · have shown : edit.comm.merged ≠ "" := same ▸ edit.filled
    rw [if_pos same]
    cases found : edit.functionText with
    | none => simp [same]
    | some text =>
      dsimp only
      rw [same, merged_withColumn_eq_iff (edit.functionText_ne found) shown]
      simp
  · rw [if_neg same]
    dsimp only
    by_cases several : 1 < edit.comm.parts.length
    · have longer := merged_withColumn_of_several edit.filled several
      simp [longer, same, several]
    · have single := Nat.le_of_not_lt several
      simp [merged_withColumn_of_single edit.filled single, single, same]

/-- The exported record has the columns the check-in left. -/
theorem record_merged {program : ProgramDB space}
    (columns : ∀ type, emptyIfNull (program.commentAt edit.comm.addr type) = column edit.afterCheckin type) :
    (commentRecord edit.addrMap edit.key (rowAt program edit.comm.addr)).merged = edit.afterCheckin.merged := by
  refine merged_eq_of_columns fun type => ?_
  rw [← columns]
  cases type <;> rfl

/-- The row still has text, so it is exported. -/
theorem commentColumns_ne_nil {program : ProgramDB space}
    (columns : ∀ type, emptyIfNull (program.commentAt edit.comm.addr type) = column edit.afterCheckin type) :
    commentColumns (rowAt program edit.comm.addr) ≠ [] := by
  intro empty
  refine edit.afterCheckin_shows ?_
  rw [← edit.record_merged columns]
  rw [commentColumns, List.map_eq_nil_iff, List.filter_eq_nil_iff] at empty
  simp only [List.forall_mem_cons, decide_eq_true_eq, not_not] at empty
  obtain ⟨eol, pre, post, _, rep, _⟩ := empty
  rw [GhidraComment.merged, GhidraComment.parts, commentRecord]
  simp [eol, pre, post, rep]

/-- Every program can be saved and imported again. -/
theorem readback_exists (program : ProgramDB space) : Nonempty (Readback edit program) := by
  let db : ProgramTables :=
    { addressMap := edit.addrMap, comments := Table.set ∅ edit.key (rowAt program edit.comm.addr) }
  obtain ⟨out, parsed, _⟩ := @response_comments db none 0
  refine ⟨{ db, sameMap := rfl, saved := ?_, alone := ?_, opened := none, id := 0, data := out, parsed,
            fresh := {}, blank := rfl }⟩
  · exact (Table.lookup_set ..).trans (if_pos rfl)
  · intro key row held _
    by_contra other
    rw [Table.lookup_set, if_neg other] at held
    cases held

/-- The next import shows what the check-in made of the record. -/
theorem shown_after_checkin :
    ∃ applied, applyComments edit.program (sentComments edit.state edit.edited) = some applied ∧
      ∀ back : Readback edit applied.program, back.shown = edit.afterCheckin.merged := by
  obtain ⟨applied, ran, columns⟩ := edit.checkin_columns
  refine ⟨applied, ran, fun back => ?_⟩
  exact (back.shown_eq (edit.commentColumns_ne_nil columns)).trans (edit.record_merged columns)

end EditedComment

/-- The edited text is what the next import shows exactly when the record had one
column for it, or nothing at the address was changed. -/
theorem edited_text_returns_iff {space : AddressSpace} (edit : EditedComment space) :
    (∃ applied, applyComments edit.program (sentComments edit.state edit.edited) = some applied ∧
      ∀ back : Readback edit applied.program, back.shown = edit.text) ↔ edit.Returns := by
  obtain ⟨applied, ran, shown⟩ := edit.shown_after_checkin
  constructor
  · rintro ⟨other, same, returns⟩
    rw [ran, Option.some.injEq] at same
    subst same
    obtain ⟨back⟩ := edit.readback_exists applied.program
    exact edit.afterCheckin_merged_iff.mp ((shown back).symm.trans (returns back))
  · intro returns
    exact ⟨applied, ran, fun back => (shown back).trans (edit.afterCheckin_merged_iff.mpr returns)⟩

/-- An end-of-line comment and a comment before the instruction, edited as one. -/
def twoColumns : EditedComment {} where
  addrMap := ∅
  key := 0x401000
  ram := by decide
  comm := { addr := 0x401000, eol := "a", pre := "b" }
  placed := rfl
  noPlate := rfl
  data := { comments := [{ addr := 0x401000, eol := "a", pre := "b" }] }
  alone := rfl
  program :=
    { comments :=
        Table.set (Table.set ∅ (AddressSpace.flat 0x401000, .eol) "a") (AddressSpace.flat 0x401000, .pre) "b" }
  mapped := rfl
  held := fun type => by cases type <;> rfl
  view := {}
  edited := { comments := Table.set ∅ 0x401000 "c" }
  sameStart := rfl
  text := "c"
  filled := by decide
  shown := rfl
  repo := "r"
  folder := "/"
  item := "prog"
  stored := by decide

/-- The edit comes back with the second column after it. -/
theorem edit_joined_again :
    (∃ applied, applyComments twoColumns.program (sentComments twoColumns.state twoColumns.edited) = some applied ∧
      ∃ back : Readback twoColumns applied.program, back.shown = "c\nb") ∧
    ¬∃ applied, applyComments twoColumns.program (sentComments twoColumns.state twoColumns.edited) = some applied ∧
      ∀ back : Readback twoColumns applied.program, back.shown = twoColumns.text := by
  obtain ⟨applied, ran, shown⟩ := twoColumns.shown_after_checkin
  obtain ⟨back⟩ := twoColumns.readback_exists applied.program
  have joined : back.shown = "c\nb" := (shown back).trans (by decide)
  refine ⟨⟨applied, ran, back, joined⟩, ?_⟩
  rintro ⟨other, same, returns⟩
  rw [ran, Option.some.injEq] at same
  subst same
  have text := returns back
  rw [joined] at text
  exact absurd text (by decide)

end GhidraBridge.CommentRoundTrip
