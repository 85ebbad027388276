import GhidraBridge.DataTypeEntries

/-! Descriptions and comments of a data type across a check-in. The entry of a type
has neither, so the type built from it has none, and the replaced one loses what it
had: also on members and values the user left alone. -/
namespace GhidraBridge.TypeAnnotations
open Lib Lib.Fold CheckinState ProgramApplier BaselineMoves DataTypeEntries

/-! ## Annotations -/

/-- The comment of the member of a name at an offset; a member without a name is
exported with an empty one. -/
def memberComment (content : TypeContent) (name : String) (offset : Int32) : String :=
  match content with
  | .composite _ layout =>
    ((layout.components.find? fun c => c.fieldName.getD "" = name && c.offset = offset).bind Component.comment).getD ""
  | _ => ""

/-- The comment of the value of a name. -/
def valueComment (content : TypeContent) (name : String) (value : Int64) : String :=
  match content with
  | .enumeration _ entries =>
    ((entries.find? fun e => e.name = name && e.value = value).bind EnumEntry.comment).getD ""
  | _ => ""

/-- The type in the view has a member of that name at that offset. -/
def ShowsMember (definition : TypeDefinition) (name : String) (offset : Int32) : Prop :=
  match definition with
  | .composite _ _ members => ∃ m ∈ members, m.name = name ∧ m.offset.toInt64.toInt32 = offset
  | _ => False

/-- The type in the view has a value of that name. -/
def ShowsValue (definition : TypeDefinition) (name : String) (value : Int64) : Prop :=
  match definition with
  | .enumeration _ members => ∃ v ∈ members, v.name = name ∧ v.value.toInt64 = value
  | _ => False

/-- The description, and the comments of what the view still has, are as they were. -/
structure Annotated (definition : TypeDefinition) (old new : DataTypeRecord) : Prop where
  description : new.description = old.description
  members : ∀ name offset, ShowsMember definition name offset →
    memberComment new.content name offset = memberComment old.content name offset
  values : ∀ name value, ShowsValue definition name value →
    valueComment new.content name value = valueComment old.content name value

/-- There is nothing to lose: no description, and no comment on what the view still has. -/
structure Bare (definition : TypeDefinition) (old : DataTypeRecord) : Prop where
  description : old.description = ""
  members : ∀ name offset, ShowsMember definition name offset → memberComment old.content name offset = ""
  values : ∀ name value, ShowsValue definition name value → valueComment old.content name value = ""

/-- A type without a comment. -/
def Blank : TypeContent → Prop
  | .composite _ layout => ∀ c ∈ layout.components, c.comment = none
  | .enumeration _ entries => ∀ e ∈ entries, e.comment = none
  | .typedef _ => True

theorem memberComment_of_blank {content : TypeContent} (blank : Blank content) (name : String) (offset : Int32) :
    memberComment content name offset = "" := by
  cases content with
  | composite isUnion layout =>
    rw [memberComment]
    cases found : layout.components.find? fun c => c.fieldName.getD "" = name && c.offset = offset with
    | none => rfl
    | some c =>
      rw [Option.bind_some, blank c (List.mem_of_find?_eq_some found)]
      rfl
  | enumeration length entries => rfl
  | typedef target => rfl

theorem valueComment_of_blank {content : TypeContent} (blank : Blank content) (name : String) (value : Int64) :
    valueComment content name value = "" := by
  cases content with
  | composite isUnion layout => rfl
  | enumeration length entries =>
    rw [valueComment]
    cases found : entries.find? fun e => e.name = name && e.value = value with
    | none => rfl
    | some e =>
      rw [Option.bind_some, blank e (List.mem_of_find?_eq_some found)]
      rfl
  | typedef target => rfl

/-- A record that was cleared has the old annotations exactly if there were none. -/
theorem annotated_iff_bare {definition : TypeDefinition} {old new : DataTypeRecord} (blank : Blank new.content)
    (description : new.description = "") : Annotated definition old new ↔ Bare definition old := by
  constructor
  · intro kept
    refine ⟨kept.description.symm.trans description, fun name offset shown => ?_, fun name value shown => ?_⟩
    · exact (kept.members name offset shown).symm.trans (memberComment_of_blank blank name offset)
    · exact (kept.values name value shown).symm.trans (valueComment_of_blank blank name value)
  · intro bare
    refine ⟨description.trans bare.description.symm, fun name offset shown => ?_, fun name value shown => ?_⟩
    · exact (memberComment_of_blank blank name offset).trans (bare.members name offset shown).symm
    · exact (valueComment_of_blank blank name value).trans (bare.values name value shown).symm

theorem annotated_refl (definition : TypeDefinition) (record : DataTypeRecord) :
    Annotated definition record record :=
  ⟨rfl, fun _ _ _ => rfl, fun _ _ _ => rfl⟩

/-! ## The new type of an entry -/

/-- Each comment of the new components was given, or was there before. -/
def CommentsFrom (comment : Option String) (before after : Layout) : Prop :=
  ∀ c ∈ after.components, c.comment = none ∨ c.comment = comment ∨ ∃ old ∈ before.components, c.comment = old.comment

/-- The library makes up no comment. -/
structure KeepsComments (lib : TypeLibrary) : Prop where
  insertAtOffset : ∀ s offset type length name comment after,
    lib.insertAtOffset s offset type length name comment = some after → CommentsFrom comment s after
  add : ∀ s type length name comment after, lib.add s type length name comment = some after →
    CommentsFrom comment s after
  addToUnion : ∀ u type length name comment after, lib.addToUnion u type length name comment = some after →
    CommentsFrom comment u after
  growStructure : ∀ s amount, CommentsFrom none s (lib.growStructure s amount)
  addEntry : ∀ length entries name value comment after, lib.addEntry length entries name value comment = some after →
    ∀ e ∈ after, e.comment = none ∨ e.comment = comment ∨ ∃ old ∈ entries, e.comment = old.comment

section Rebuild
variable {lib : TypeLibrary} {manager : DataTypeManager}

/-- No component has a comment. -/
def Uncommented (layout : Layout) : Prop := ∀ c ∈ layout.components, c.comment = none

theorem CommentsFrom.uncommented {before after : Layout} (made : CommentsFrom none before after)
    (plain : Uncommented before) : Uncommented after := by
  intro c member
  rcases made c member with fresh | given | ⟨old, held, same⟩
  · exact fresh
  · exact given
  · exact same.trans (plain old held)

theorem uncommented_getD {s : Layout} {placed : Option Layout} (before : Uncommented s)
    (made : ∀ after, placed = some after → CommentsFrom none s after) : Uncommented (placed.getD s) := by
  cases placed with
  | none => exact before
  | some after => exact (made after rfl).uncommented before

theorem placeMember_uncommented (law : KeepsComments lib) {s next : Layout} {m : ChangedMember}
    (before : Uncommented s) (placed : placeMember lib manager s (CheckinJson.memberEntry m) = some next) :
    Uncommented next := by
  rw [placeMember_entry] at placed
  obtain ⟨type, _, rfl⟩ := Option.map_eq_some_iff.mp placed
  refine uncommented_getD before fun after inserted => ?_
  split at inserted
  · exact law.insertAtOffset _ _ _ _ _ _ after inserted
  · exact law.add _ _ _ _ _ after inserted

theorem addUnionMember_uncommented (law : KeepsComments lib) {u next : Layout} {m : ChangedMember}
    (before : Uncommented u) (placed : addUnionMember lib manager u (CheckinJson.memberEntry m) = some next) :
    Uncommented next := by
  rw [addUnionMember_entry] at placed
  obtain ⟨type, _, rfl⟩ := Option.map_eq_some_iff.mp placed
  exact uncommented_getD before fun after added => law.addToUnion _ _ _ _ _ after added

theorem addValue_uncommented (law : KeepsComments lib) {length : Int32} {entries next : List EnumEntry}
    {v : ChangedValue} (before : ∀ e ∈ entries, e.comment = none)
    (added : addValue lib length entries (CheckinJson.valueEntry v) = some next) : ∀ e ∈ next, e.comment = none := by
  rw [addValue_entry, Option.some.injEq] at added
  subst added
  split
  · exact before
  · cases found : lib.addEntry length entries v.name v.value none with
    | none => exact before
    | some after =>
      intro e member
      rcases law.addEntry _ _ _ _ _ after found e member with fresh | given | ⟨old, held, same⟩
      · exact fresh
      · exact given
      · exact same.trans (before old held)

/-- Whatever an entry builds has no comment. -/
theorem rebuild_blank (law : KeepsComments lib) {dt : DataTypeChange} {kind : String} {content : TypeContent}
    (built : rebuild lib manager kind (CheckinJson.dataTypeEntry dt) = some content) : Blank content := by
  rw [rebuild, members_read, values_read] at built
  simp only [Option.bind_eq_bind, Option.bind_some] at built
  -- Structures and unions differ in the step only.
  have placed {step : Layout → Json → Option Layout} {final : Layout}
      (kept : ∀ s m next, Uncommented s → step s (CheckinJson.memberEntry m) = some next → Uncommented next)
      (run : (dt.members.map CheckinJson.memberEntry).foldlM step {} = some final) : Uncommented final := by
    rw [List.foldlM_map] at run
    exact foldlM_keeps (fun s m next _ before stepped => kept s m next before stepped) run
      (fun c member => absurd member List.not_mem_nil)
  split at built
  · obtain ⟨size, _, rest⟩ := Option.bind_eq_some_iff.mp built
    obtain ⟨s, run, made⟩ := Option.bind_eq_some_iff.mp rest
    cases made
    have plain := placed (fun _ _ _ => placeMember_uncommented law) run
    show Uncommented _
    split
    · exact (law.growStructure _ _).uncommented plain
    · exact plain
  · split at built
    · obtain ⟨u, run, made⟩ := Option.bind_eq_some_iff.mp built
      cases made
      exact placed (fun _ _ _ => addUnionMember_uncommented law) run
    · split at built
      · obtain ⟨size, _, rest⟩ := Option.bind_eq_some_iff.mp built
        obtain ⟨length, _, filled⟩ := Option.bind_eq_some_iff.mp rest
        obtain ⟨entries, run, made⟩ := Option.bind_eq_some_iff.mp filled
        cases made
        rw [List.foldlM_map] at run
        exact foldlM_keeps (P := fun entries : List EnumEntry => ∀ e ∈ entries, e.comment = none)
          (fun entries v next _ before stepped => addValue_uncommented law before stepped) run
          (fun e member => absurd member List.not_mem_nil)
      · split at built
        · obtain ⟨under, _, rest⟩ := Option.bind_eq_some_iff.mp built
          obtain ⟨found, _, made⟩ := Option.bind_eq_some_iff.mp rest
          obtain ⟨target, _, rfl⟩ := Option.map_eq_some_iff.mp made
          exact trivial
        · cases built

end Rebuild

/-! ## A run over the entries -/

section Run
variable {lib : TypeLibrary}

/-- Some entry of the name is built in its turn: with the types as the entries before
it left them. -/
def RebuiltIn (lib : TypeLibrary) (start : TypesApplied) (changes : List DataTypeChange) (name : String) : Prop :=
  ∃ done dt later applied, changes = done ++ dt :: later ∧ dt.name = name ∧
    (done.map CheckinJson.dataTypeEntry).foldlM (applyTypeChange lib) start = some applied ∧
    (rebuild lib applied.manager dt.kind.text (CheckinJson.dataTypeEntry dt)).isSome

theorem rebuiltIn_concat {start middle : TypesApplied} {front : List DataTypeChange} {last : DataTypeChange}
    {name : String} (run : (front.map CheckinJson.dataTypeEntry).foldlM (applyTypeChange lib) start = some middle) :
    RebuiltIn lib start (front ++ [last]) name ↔ RebuiltIn lib start front name ∨
      (last.name = name ∧ (rebuild lib middle.manager last.kind.text (CheckinJson.dataTypeEntry last)).isSome) := by
  constructor
  · rintro ⟨done, dt, later, applied, shape, named, ran, built⟩
    rcases List.eq_nil_or_concat' later with rfl | ⟨between, final, rfl⟩
    · obtain ⟨rfl, same⟩ := List.append_inj' shape rfl
      cases same
      rw [ran, Option.some.injEq] at run
      exact .inr ⟨named, run ▸ built⟩
    · rw [← List.cons_append, ← List.append_assoc] at shape
      exact .inl ⟨done, dt, between, applied, (List.append_inj' shape rfl).1, named, ran, built⟩
  · rintro (⟨done, dt, later, applied, rfl, named, ran, built⟩ | ⟨named, built⟩)
    · exact ⟨done, dt, later ++ [last], applied, by simp, named, ran, built⟩
    · exact ⟨front, last, [], middle, rfl, named, run, built⟩

/-- The record of a type whose entries are all edits: cleared if one was built, else
as it was. -/
theorem run_record (law : KeepsComments lib) {start final : TypesApplied} {changes : List DataTypeChange}
    {name : String} {old : DataTypeRecord}
    (edits : ∀ dt ∈ changes, dt.name = name → dt.name ≠ "" ∧ dt.op ≠ .delete)
    (held : start.manager.lookup (rootCategory, name) = some old)
    (run : (changes.map CheckinJson.dataTypeEntry).foldlM (applyTypeChange lib) start = some final) :
    (¬RebuiltIn lib start changes name ∧ final.manager.lookup (rootCategory, name) = some old) ∨
      (RebuiltIn lib start changes name ∧ ∃ new, final.manager.lookup (rootCategory, name) = some new ∧
        new.description = "" ∧ Blank new.content) := by
  induction changes using List.reverseRecOn generalizing final with
  | nil =>
    cases run
    refine .inl ⟨?_, held⟩
    rintro ⟨done, dt, later, _, shape, _⟩
    simp at shape
  | append_singleton front last ih =>
    rw [List.map_append, List.foldlM_append] at run
    obtain ⟨middle, ran, stepped⟩ := Option.bind_eq_some_iff.mp run
    have before := ih (fun dt member => edits dt (List.mem_append_left _ member)) ran
    obtain ⟨next, applied, turn⟩ := @applyTypeChange_turn lib middle last
    rw [List.map_singleton, List.foldlM_cons, applied] at stepped
    cases stepped
    rw [rebuiltIn_concat ran]
    generalize final.manager = after at turn ⊢
    by_cases named : last.name = name
    · subst named
      obtain ⟨some, edit⟩ := edits last (by simp) rfl
      cases turn with
      | skipped unnamed => exact absurd unnamed some
      | deleted _ deletes => exact absurd deletes edit
      | refused _ _ built => simpa [built] using before
      | replaced _ _ built =>
        refine .inr ⟨.inr ⟨rfl, by simp [built]⟩, ?_⟩
        rw [DataTypeManager.addDataType, Table.lookup_set, if_pos rfl]
        exact ⟨_, rfl, rfl, rebuild_blank law built⟩
    · have other : (rootCategory, name) ≠ (rootCategory, last.name) := fun same => named (Prod.mk.inj same).2.symm
      rw [turn.lookup_other other]
      simpa [named] using before

/-- A category other than the root is left alone. -/
theorem run_elsewhere {start final : TypesApplied} {changes : List DataTypeChange} {category name : String}
    {old : DataTypeRecord} (elsewhere : category ≠ rootCategory)
    (held : start.manager.lookup (category, name) = some old)
    (run : (changes.map CheckinJson.dataTypeEntry).foldlM (applyTypeChange lib) start = some final) :
    final.manager.lookup (category, name) = some old := by
  rw [List.foldlM_map] at run
  refine foldlM_keeps (P := fun applied : TypesApplied => applied.manager.lookup (category, name) = some old)
    (fun applied dt next _ before stepped => ?_) run held
  obtain ⟨after, made, turn⟩ := @applyTypeChange_turn lib applied dt
  rw [made, Option.some.injEq] at stepped
  subst stepped
  rw [turn.lookup_other (fun same => elsewhere (Prod.mk.inj same).1)]
  exact before

end Run

/-! ## A check-in -/

/-- The data types of the request a check-in of this view sends. -/
def sentTypes (state : CheckinState) (view : BinaryView) : List Json :=
  requestArray
    (CheckinJson.buildCheckinJson (rebase state view) (collectCheckinChanges state view)
      state.addrToOriginalFuncComment state.addrToCommentField)
    "data_type_changes"

/-- The check-in has an edit of the type, and the type can be built when its turn
comes, with the stubs in place and the entries before it applied. -/
def Replaced (lib : TypeLibrary) (manager : DataTypeManager) (state : CheckinState) (view : BinaryView) (name : String)
    (registered : RegisteredType) : Prop :=
  state.checkinItem ≠ "" ∧ ∃ dt, typeChange state view name registered = some dt ∧
    ∃ done later stubbed applied, collectDataTypes state view = done ++ dt :: later ∧
      ((collectDataTypes state view).map CheckinJson.dataTypeEntry).foldlM (applyStub lib) manager = some stubbed ∧
      (done.map CheckinJson.dataTypeEntry).foldlM (applyTypeChange lib) { manager := stubbed } = some applied ∧
      Buildable lib applied.manager view registered.definition

section Checkin
variable {lib : TypeLibrary} {manager : DataTypeManager} {state : CheckinState} {view : BinaryView} {name : String}
variable {registered : RegisteredType}

/-- The entries of a type the view lists are edits of it. -/
theorem edit_of_shown (shown : view.types.lookup name = some registered) {dt : DataTypeChange}
    (member : dt ∈ collectDataTypes state view) (named : dt.name = name) :
    typeChange state view name registered = some dt ∧ dt.name ≠ "" ∧ dt.op ≠ .delete := by
  subst named
  rcases mem_collectDataTypes member with ⟨listed, found, made⟩ | ⟨_, unlisted, _⟩
  · rw [shown, Option.some.injEq] at found
    subst found
    refine ⟨made, ?_, (typeChange_eq_some made).1⟩
    intro unnamed
    rw [typeChange, if_pos (.inl unnamed)] at made
    cases made
  · exact absurd (AList.lookup_isSome.mp (by simp [shown])) unlisted

theorem rebuiltIn_iff_replaced (shown : view.types.lookup name = some registered) (imported : state.checkinItem ≠ "")
    {stubbed : DataTypeManager}
    (stubs : ((collectDataTypes state view).map CheckinJson.dataTypeEntry).foldlM (applyStub lib) manager =
      some stubbed) :
    RebuiltIn lib { manager := stubbed } (collectDataTypes state view) name ↔
      Replaced lib manager state view name registered := by
  constructor
  · rintro ⟨done, dt, later, applied, shape, named, run, built⟩
    obtain ⟨made, _⟩ := edit_of_shown shown (by rw [shape]; simp) named
    obtain ⟨_, _, change, described, filled, _⟩ := typeChange_eq_some made
    rw [rebuild_isSome_iff described filled] at built
    exact ⟨imported, dt, made, done, later, stubbed, applied, shape, stubs, run, built⟩
  · rintro ⟨_, dt, made, done, later, stubbed', applied, shape, stubs', run, built⟩
    rw [stubs, Option.some.injEq] at stubs'
    subst stubs'
    obtain ⟨_, named, change, described, filled, _⟩ := typeChange_eq_some made
    exact ⟨done, dt, later, applied, shape, named, run, (rebuild_isSome_iff described filled).mpr built⟩

/-- A check-in keeps the description of a type, and the comments of what the view
still has of it, exactly when the type is not in the root category, or it is not
replaced, or there is nothing to lose. -/
theorem type_annotations_kept_iff (law : KeepsComments lib) {category : String} {old : DataTypeRecord}
    (held : manager.lookup (category, name) = some old) (shown : view.types.lookup name = some registered) :
    ∃ applied, applyDataTypes lib manager (sentTypes state view) = some applied ∧
      ((∃ new, applied.manager.lookup (category, name) = some new ∧ Annotated registered.definition old new) ↔
        category ≠ rootCategory ∨ ¬Replaced lib manager state view name registered ∨
          Bare registered.definition old) := by
  have sent : sentTypes state view =
      (collectCheckinChanges state view).dataTypeChanges.map CheckinJson.dataTypeEntry := rfl
  obtain ⟨stubbed, stubs, kept⟩ := @stubs_run lib (collectCheckinChanges state view).dataTypeChanges manager
  obtain ⟨final, run⟩ := @changes_run lib (collectCheckinChanges state view).dataTypeChanges
    { manager := stubbed }
  have there := kept _ old held
  refine ⟨final, by rw [applyDataTypes, sent, stubs]; exact run, ?_⟩
  have unmoved (same : final.manager.lookup (category, name) = some old) :
      ∃ new, final.manager.lookup (category, name) = some new ∧ Annotated registered.definition old new :=
    ⟨old, same, annotated_refl registered.definition old⟩
  by_cases elsewhere : category ≠ rootCategory
  · exact iff_of_true (unmoved (run_elsewhere elsewhere there run)) (.inl elsewhere)
  rw [not_not] at elsewhere
  subst elsewhere
  by_cases imported : state.checkinItem = ""
  · rw [collectCheckinChanges, if_pos imported] at run
    cases run
    exact iff_of_true (unmoved there) (.inr (.inl fun replaced => replaced.1 imported))
  · rw [collectCheckinChanges, if_neg imported] at run stubs
    have edits (dt : DataTypeChange) (member : dt ∈ collectDataTypes state view) (named : dt.name = name) :=
      (edit_of_shown shown member named).2
    rw [← rebuiltIn_iff_replaced shown imported stubs]
    rcases run_record law edits there run with ⟨quiet, same⟩ | ⟨rebuilt, new, cleared, plain, blank⟩
    · exact iff_of_true (unmoved same) (.inr (.inl quiet))
    · rw [cleared]
      simp only [Option.some.injEq, exists_eq_left', ne_eq, not_true_eq_false, rebuilt, false_or]
      exact annotated_iff_bare blank plain

end Checkin

/-! ## A renamed member -/

/-- Members placed one after another, values of different names. -/
def plainLibrary : TypeLibrary where
  isLetterOrDigit := Char.isAlphanum
  parse _ text := some (.parsed text)
  getLength _ _ := 4
  insertAtOffset s offset type length name comment :=
    if offset < s.length then none
    else some { length := offset + length, components := s.components ++ [⟨name, offset, length, type, comment⟩] }
  add s type length name comment :=
    some { length := s.length + length, components := s.components ++ [⟨name, s.length, length, type, comment⟩] }
  addToUnion u type length name comment :=
    some { length := max u.length length, components := u.components ++ [⟨name, 0, length, type, comment⟩] }
  growStructure s amount := { s with length := s.length + amount }
  structureLength s := if s.length = 0 then 1 else s.length
  addEntry _ entries name value comment :=
    if entries.any fun e => e.name = name then none else some (entries ++ [⟨name, value, comment⟩])
  newId manager := Int64.ofNat manager.keys.length + 1

theorem plainLibrary_keeps : KeepsComments plainLibrary := by
  have appended {before : List Component} {new c : Component} (member : c ∈ before ++ [new]) :
      c.comment = none ∨ c.comment = new.comment ∨ ∃ old ∈ before, c.comment = old.comment := by
    rcases List.mem_append.mp member with held | here
    · exact .inr (.inr ⟨c, held, rfl⟩)
    · rw [List.mem_singleton.mp here]
      exact .inr (.inl rfl)
  constructor
  · intro s offset type length name comment after inserted c member
    simp only [plainLibrary] at inserted
    split at inserted
    · cases inserted
    · cases inserted
      exact appended member
  · intro s type length name comment after added c member
    cases added
    exact appended member
  · intro u type length name comment after added c member
    cases added
    exact appended member
  · intro s amount c member
    exact .inr (.inr ⟨c, member, rfl⟩)
  · intro length entries name value comment after added e member
    simp only [plainLibrary] at added
    split at added
    · cases added
    · cases added
      rcases List.mem_append.mp member with held | here
      · exact .inr (.inr ⟨e, held, rfl⟩)
      · rw [List.mem_singleton.mp here]
        exact .inr (.inl rfl)

/-- A structure with a description and a comment on its first member. -/
def packetExport : GhidraDbExport :=
  { dataTypes := [
      { id := 1, kind := .struct, name := "Packet", comment := "wire header", size := 8
        members := [
          { name := "len", size := 4, typeName := "int", comment := "in bytes" },
          { name := "crc", offset := 4, size := 4, ordinal := 1, typeName := "int" }] }] }

/-- What the program has of it. -/
def packet : DataTypeRecord where
  id := 1
  description := "wire header"
  content := .composite false
    { length := 8
      components := [⟨some "len", 0, 4, .parsed "int", some "in bytes"⟩, ⟨some "crc", 4, 4, .parsed "int", none⟩] }

def packetState : CheckinState := store (SyncEngine.applyToView {} packetExport).2 "r" "/" "prog"

/-- The structure after the user renamed its second member. -/
def renamedPacket : TypeDefinition :=
  .composite false 8 [⟨.integer 4 true, "len", 0⟩, ⟨.integer 4 true, "checksum", 4⟩]

def packetEdited : BinaryView :=
  { (SyncEngine.applyToView {} packetExport).1 with userTypes := Table.set ∅ "Packet" ⟨"Packet", renamedPacket⟩ }

theorem renamed_member_loses_annotations :
    packetEdited.types.lookup "Packet" = some ⟨"Packet", renamedPacket⟩ ∧
      memberComment packet.content "len" 0 = "in bytes" ∧
      ∃ applied new, applyDataTypes plainLibrary (Table.set ∅ (rootCategory, "Packet") packet)
          (sentTypes packetState packetEdited) = some applied ∧
        applied.manager.lookup (rootCategory, "Packet") = some new ∧
        memberComment new.content "len" 0 = "" ∧ ¬Annotated renamedPacket packet new := by
  have run : (applyDataTypes plainLibrary (Table.set ∅ (rootCategory, "Packet") packet)
      (sentTypes packetState packetEdited)).map (fun applied => applied.manager.lookup (rootCategory, "Packet")) =
      some (some {
        id := 1
        content := .composite false
          { length := 8
            components :=
              [⟨some "len", 0, 4, .parsed "int", none⟩, ⟨some "checksum", 4, 4, .parsed "int", none⟩] } }) := by
    decide +kernel
  obtain ⟨applied, ran, found⟩ := Option.map_eq_some_iff.mp run
  refine ⟨by decide +kernel, by decide +kernel, applied, _, ran, found, by decide +kernel, fun kept => ?_⟩
  exact absurd kept.description (by decide +kernel)

/-- The comment of a member that was renamed is not one to keep. -/
def plainPacket : DataTypeRecord where
  id := 1
  content := .composite false
    { length := 8
      components := [⟨some "len", 0, 4, .parsed "int", none⟩, ⟨some "crc", 4, 4, .parsed "int", some "last"⟩] }

theorem renamed_member_of_plain_structure :
    ∃ applied new, applyDataTypes plainLibrary (Table.set ∅ (rootCategory, "Packet") plainPacket)
        (sentTypes packetState packetEdited) = some applied ∧
      applied.manager.lookup (rootCategory, "Packet") = some new ∧ Annotated renamedPacket plainPacket new := by
  have held : (Table.set ∅ (rootCategory, "Packet") plainPacket : DataTypeManager).lookup (rootCategory, "Packet") =
      some plainPacket := by
    decide +kernel
  have shown : packetEdited.types.lookup "Packet" = some ⟨"Packet", renamedPacket⟩ := by decide +kernel
  have bare : Bare renamedPacket plainPacket := by
    refine ⟨rfl, ?_, fun name value none => none.elim⟩
    rintro name offset ⟨m, member, rfl, rfl⟩
    revert m
    decide +kernel
  obtain ⟨applied, ran, kept⟩ := @type_annotations_kept_iff _ _ packetState _ _ _ plainLibrary_keeps _ _ held shown
  obtain ⟨new, found, annotated⟩ := kept.mpr (.inr (.inr bare))
  exact ⟨applied, new, ran, found, annotated⟩

end GhidraBridge.TypeAnnotations
