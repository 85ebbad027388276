import GhidraBridge.ImportEffects
import GhidraBridge.TypeReadback

/-! Data types across an import and an untouched check-in. A member's type is
resolved while the types are still being registered one after another, so what
a name resolves to depends on the types before it in the list; the check-in
then compares the rendering of that type with the exported name. -/
namespace GhidraBridge.TypeBaseline
open Lib SyncEngine CheckinState

/-- The export's type names are unique, non-empty, not reserved, and new to the view. -/
structure FreshTypeNames (view : BinaryView) (data : GhidraDbExport) : Prop where
  unique : (data.dataTypes.map GhidraDataType.name).Nodup
  named : ∀ dt ∈ data.dataTypes, dt.name ≠ ""
  plain : ∀ dt ∈ data.dataTypes, startsWith dt.name "__" = false
  fresh : ∀ dt ∈ data.dataTypes, dt.name ∉ view.types

/-- The names with a type once the data types of `prior` are registered. -/
def knownAfter (view : BinaryView) (data : GhidraDbExport) (prior : List GhidraDataType) (name : String) :
    Bool :=
  decide ((∃ dt ∈ prior, Registers dt ∧ dt.name = name) ∨
    (∃ eq ∈ data.equates, EquateRegisters eq ∧ eq.name = name) ∨ name ∈ view.types)

/-- What a member's name has to spell when it does not resolve. -/
def sizeSpelling (size : Int32) : List Char :=
  canonicalChars (if 0 < size then "uint" ++ toString (8 * size.toNatClampNeg) ++ "_t" else "void").toList

/-- The member's type name reads back when its type is registered after `prior`. -/
def memberReadsBack (view : BinaryView) (data : GhidraDbExport) (prior : List GhidraDataType)
    (m : GhidraDataTypeMember) : Bool :=
  readsBack (knownAfter view data prior) view.host.keyword (sizeSpelling m.size) m.typeName.toList

/-- Either no member has a name, or all have one and all their types read back. -/
def MembersSettled (view : BinaryView) (data : GhidraDbExport) (prior : List GhidraDataType)
    (dt : GhidraDataType) : Prop :=
  (∀ m ∈ dt.members, m.name = "") ∨
    ∀ m ∈ dt.members, m.name ≠ "" ∧ memberReadsBack view data prior m = true

/-- The last equate of the type's name shows exactly the type's one value. -/
def EquateStandsIn (data : GhidraDbExport) (dt : GhidraDataType) : Prop :=
  ∃ eq, data.equates.reverse.find? (fun eq => EquateRegisters eq ∧ eq.name = dt.name) = some eq ∧
    ∃ value, dt.values = [value] ∧ value.name = eq.name ∧ value.value = eq.value

/-- The type is registered with members that read back. One that is not
registered is only taken for present where an equate stands in for it. -/
def Settled (view : BinaryView) (data : GhidraDbExport) (prior : List GhidraDataType)
    (dt : GhidraDataType) : Prop :=
  (Registers dt ∧ (dt.kind = .struct ∨ dt.kind = .union → MembersSettled view data prior dt)) ∨
    (¬Registers dt ∧ EquateStandsIn data dt)

/-- A definition the check-in would send. -/
def Checkable : TypeDefinition → Prop
  | .composite _ _ members => members ≠ []
  | .enumeration _ members => members ≠ []
  | .typedef target _ => target ≠ ""
  | .other _ => False

/-- The user has no type of their own that a check-in would add. -/
def NoOwnTypes (view : BinaryView) : Prop :=
  ∀ name registered, view.userTypes.lookup name = some registered →
    name = "" ∨ startsWith name "__" = true ∨ ¬Checkable registered.definition

/-! ## Comparing a definition with its baseline -/

theorem describeType_eq_none (view : BinaryView) (name : String) (definition : TypeDefinition) :
    describeType view name definition = none ↔ ¬Checkable definition := by
  unfold describeType Checkable
  cases definition <;> simp

private theorem zip_map_self {A B : Type} (f : A → B) (xs : List A) :
    (xs.map f).zip xs = xs.map fun x => (f x, x) := by
  induction xs with
  | nil => rfl
  | cons x rest ih => simp [ih]

theorem listDiffers_map_self {A B : Type} (differs : B → A → Bool) (f : A → B) (xs : List A) :
    listDiffers differs (xs.map f) xs = false ↔ ∀ x ∈ xs, differs (f x) x = false := by
  unfold listDiffers
  rw [zip_map_self]
  simp

/-- The type in the view shows no difference from its baseline. -/
def Unchanged (view : BinaryView) (name : String) (definition : TypeDefinition) (base : GhidraDataType) :
    Prop :=
  ∀ change, describeType view name definition = some change → typeDiffers definition change base = false

theorem unchanged_enumeration (view : BinaryView) (name : String) (width : Nat) (base : GhidraDataType) :
    Unchanged view name (.enumeration width (base.values.map fun v => ⟨v.name, v.value.toUInt64⟩)) base := by
  intro change described
  unfold describeType at described
  dsimp only at described
  split at described
  · cases described
  · cases described
    have same (v : GhidraEnumValue) : valueDiffers ⟨v.name, v.value.toUInt64.toInt64⟩ v = false := by
      simp [valueDiffers]
    simp only [typeDiffers, List.map_map]
    exact (listDiffers_map_self valueDiffers _ base.values).mpr fun v _ => same v

theorem unchanged_typedef (view : BinaryView) (name : String) (width : Nat) (base : GhidraDataType) :
    Unchanged view name (.typedef base.underlyingTypeName width) base := by
  intro change described
  unfold describeType at described
  dsimp only at described
  split at described
  · cases described
  · cases described
    simp [typeDiffers]

theorem canonicalTypeName_eq_iff {first second : String} :
    canonicalTypeName first = canonicalTypeName second ↔
      canonicalChars first.toList = canonicalChars second.toList := by
  unfold canonicalTypeName
  constructor
  · intro same
    simpa using congrArg String.toList same
  · intro same
    rw [same]

/-- The type a member is given renders as the member's type name exactly when
that name reads back among the names the view knows. -/
theorem member_reads_back_iff (view : BinaryView) (m : GhidraDataTypeMember) :
    canonicalTypeName (view.getString (memberType view m)) = canonicalTypeName m.typeName ↔
      readsBack view.knows view.host.keyword (sizeSpelling m.size) m.typeName.toList = true := by
  have agrees : ∀ type, hinted m.size = some type →
      type = if 0 < m.size then BNType.integer m.size.toNatClampNeg false else .void := by
    intro type hint
    unfold hinted at hint
    split at hint
    · rename_i bounded
      cases hint
      rw [if_pos bounded.1]
    · cases hint
  have spelling : canonicalChars (view.getString
      (if 0 < m.size then BNType.integer m.size.toNatClampNeg false else .void)).toList =
        sizeSpelling m.size := by
    unfold sizeSpelling
    split <;> rfl
  have spelled : sizeSpelling m.size ≠ [] := by
    unfold sizeSpelling
    split
    · simpa [String.toList_append] using canonicalChars_uint_ne_nil (toString (8 * m.size.toNatClampNeg)).toList
    · rw [canonicalChars_void]
      decide
  rw [canonicalTypeName_eq_iff]
  rw [← spelling] at spelled ⊢
  exact resolved_reads_back_iff view m.typeName.toList agrees spelled

private theorem structureMembers_eq_nil (view : BinaryView) (dt : GhidraDataType) :
    structureMembers view dt = [] ↔ ∀ m ∈ dt.members, m.name = "" := by
  simp [structureMembers]

/-- A registered structure shows no difference exactly when none of its members
has a name, or all have one and all their types read back. -/
theorem unchanged_structure_iff (view before : BinaryView) (sameHost : view.host = before.host)
    (name : String) (isUnion : Bool) (width : Nat) (dt : GhidraDataType) :
    Unchanged view name (.composite isUnion width (structureMembers before dt)) dt ↔
      (∀ m ∈ dt.members, m.name = "") ∨
        ∀ m ∈ dt.members, m.name ≠ "" ∧
          readsBack before.knows before.host.keyword (sizeSpelling m.size) m.typeName.toList = true := by
  unfold Unchanged describeType typeDiffers
  by_cases unnamed : ∀ m ∈ dt.members, m.name = ""
  · have empty := (structureMembers_eq_nil before dt).mpr unnamed
    refine ⟨fun _ => .inl unnamed, fun _ => ?_⟩
    simp [empty]
  · have nonempty := mt (structureMembers_eq_nil before dt).mp unnamed
    simp only [nonempty, if_false, Option.some.injEq, forall_eq', unnamed, false_or]
    by_cases all : ∀ m ∈ dt.members, m.name ≠ ""
    · have kept : dt.members.filter (fun m => m.name ≠ "") = dt.members := by
        simpa using all
      have same (m : GhidraDataTypeMember) :
          memberDiffers (changedMember view ⟨memberType before m, m.name, m.offset.toInt64.toUInt64⟩) m = false ↔
            readsBack before.knows before.host.keyword (sizeSpelling m.size) m.typeName.toList = true := by
        rw [← member_reads_back_iff, BinaryView.getString, ← sameHost]
        simp [memberDiffers, changedMember, BinaryView.getString]
      rw [structureMembers, kept, List.map_map, listDiffers_map_self]
      constructor
      · exact fun equal m member => ⟨all m member, (same m).mp (equal m member)⟩
      · exact fun settled m member => (same m).mpr (settled m member).2
    · have shorter : ((structureMembers before dt).map (changedMember view)).length ≠ dt.members.length := by
        simp only [structureMembers, List.length_map]
        intro equal
        exact all fun m member => by simpa using (List.length_filter_eq_length_iff.mp equal) m member
      have differs : listDiffers memberDiffers ((structureMembers before dt).map (changedMember view)) dt.members =
          true := by
        rw [listDiffers, decide_eq_true shorter, Bool.true_or]
      simp only [differs, Bool.true_eq_false, false_iff]
      exact fun settled => all fun m member => (settled m member).1

/-! ## The types of the view after the import -/

section Import
variable {view : BinaryView} {data : GhidraDbExport}

theorem knows_eq_knownAfter (prior : List GhidraDataType) :
    (prior.foldl applyDataType (beforeTypes view data)).knows = knownAfter view data prior := by
  funext name
  unfold BinaryView.knows knownAfter
  rw [decide_eq_decide, mem_types_dataTypes, mem_types_beforeTypes]

theorem foldl_dataTypes_host (prior : List GhidraDataType) :
    (prior.foldl applyDataType (beforeTypes view data)).host = view.host :=
  BinaryView.host_eq_of_untyped ((foldl_dataTypes_untyped prior _).trans (beforeTypes_untyped view data))

/-- A name no data type registers keeps its type. -/
theorem lookup_autoTypes_of_absent {dataTypes : List GhidraDataType} {current : BinaryView}
    {name : String} (absent : ∀ dt ∈ dataTypes, Registers dt → dt.name ≠ name) :
    (dataTypes.foldl applyDataType current).autoTypes.lookup name = current.autoTypes.lookup name := by
  apply List.foldlRecOn dataTypes applyDataType
    (motive := fun v : BinaryView => v.autoTypes.lookup name = current.autoTypes.lookup name)
  · rfl
  · intro v same dt member
    rw [applyDataType_eq]
    split
    · rename_i registers
      rw [registerType, BinaryView.defineType]
      simp [Table.lookup_set, Ne.symm (absent dt member registers), same]
    · exact same

/-- With unique names, each registered type keeps the definition it was given
when its turn came. -/
theorem lookup_afterTypes (unique : (data.dataTypes.map GhidraDataType.name).Nodup)
    {prior rest : List GhidraDataType} {dt : GhidraDataType} (position : data.dataTypes = prior ++ dt :: rest) :
    ((afterTypes view data).autoTypes.lookup dt.name).map RegisteredType.definition =
      if Registers dt then some (definitionOf (prior.foldl applyDataType (beforeTypes view data)) dt)
      else ((beforeTypes view data).autoTypes.lookup dt.name).map RegisteredType.definition := by
  rw [position, List.map_append, List.map_cons, List.nodup_append, List.nodup_cons] at unique
  obtain ⟨_, ⟨later, _⟩, apart⟩ := unique
  have before : ∀ other ∈ prior, Registers other → other.name ≠ dt.name := fun other member _ =>
    apart other.name (List.mem_map_of_mem member) dt.name List.mem_cons_self
  have after : ∀ other ∈ rest, Registers other → other.name ≠ dt.name := fun other member _ same =>
    later (same ▸ List.mem_map_of_mem member)
  rw [afterTypes, position, List.foldl_append, List.foldl_cons, lookup_autoTypes_of_absent after, applyDataType_eq]
  split
  · simp [registerType, BinaryView.defineType, Table.lookup_set]
  · rw [lookup_autoTypes_of_absent before]

/-- Before the data types, an automatic type is the last equate's or the view's own. -/
theorem lookup_equates (rebase : UInt64) (equates : List GhidraEquate) (current : BinaryView) (name : String) :
    ((equates.foldl (applyEquate rebase) current).autoTypes.lookup name).map RegisteredType.definition =
      ((equates.reverse.find? fun eq => EquateRegisters eq ∧ eq.name = name).map fun eq =>
        TypeDefinition.enumeration 4 [⟨eq.name, eq.value.toUInt64⟩]).or
        ((current.autoTypes.lookup name).map RegisteredType.definition) := by
  induction equates generalizing current with
  | nil => simp
  | cons eq rest ih =>
    rw [List.foldl_cons, ih, List.reverse_cons, List.find?_append]
    cases rest.reverse.find? (fun eq => decide (EquateRegisters eq ∧ eq.name = name)) with
    | some later => simp
    | none =>
      have step := applyEquate_typing rebase current eq
      by_cases registers : EquateRegisters eq
      · rw [if_pos registers] at step
        rw [BinaryView.autoTypes_eq_of_typing step]
        by_cases same : eq.name = name
        · simp [registers, same, BinaryView.defineType, Table.lookup_set]
        · simp [same, BinaryView.defineType, Table.lookup_set, Ne.symm same]
      · rw [if_neg registers] at step
        rw [BinaryView.autoTypes_eq_of_typing step]
        simp [registers]

theorem lookup_beforeTypes (name : String) :
    ((beforeTypes view data).autoTypes.lookup name).map RegisteredType.definition =
      ((data.equates.reverse.find? fun eq => EquateRegisters eq ∧ eq.name = name).map fun eq =>
        TypeDefinition.enumeration 4 [⟨eq.name, eq.value.toUInt64⟩]).or
        ((view.autoTypes.lookup name).map RegisteredType.definition) := by
  have later := BinaryView.autoTypes_eq_of_typing
    ((foldl_parameters_typing (rebaseOf view data) data.parameters _).trans
      (foldl_bookmarks_typing (rebaseOf view data) data.bookmarks
        (data.equates.foldl (applyEquate (rebaseOf view data)) (applyMapped view data).view)))
  have mapped := BinaryView.autoTypes_eq_of_typing (applyMapped_typing view data)
  rw [beforeTypes, later, lookup_equates, mapped]

/-- A fresh name is looked up among the automatic types. -/
theorem lookup_imported_of_fresh {name : String} (fresh : name ∉ view.types) :
    (applyToView view data).1.types.lookup name = (afterTypes view data).autoTypes.lookup name := by
  have user : (afterTypes view data).userTypes = view.userTypes :=
    BinaryView.userTypes_eq_of_untyped (afterTypes_untyped view data)
  have absent : name ∉ (afterTypes view data).userTypes := by
    rw [user]
    exact fun held => fresh (BinaryView.mem_types.mpr (.inl held))
  rw [applyToView_types, BinaryView.types, AList.lookup_union_right absent]

private theorem equate_stands_in_iff (name : String) (eq : GhidraEquate) (dt : GhidraDataType) :
    Unchanged (applyToView view data).1 name (.enumeration 4 [⟨eq.name, eq.value.toUInt64⟩]) dt ↔
      ∃ value, dt.values = [value] ∧ value.name = eq.name ∧ value.value = eq.value := by
  unfold Unchanged describeType typeDiffers listDiffers
  cases dt.values with
  | nil => simp
  | cons value rest =>
    cases rest with
    | nil =>
      simp only [valueDiffers]
      simp
      constructor
      · rintro ⟨name, value⟩
        exact ⟨name.symm, value.symm⟩
      · rintro ⟨name, value⟩
        exact ⟨name.symm, value.symm⟩
    | cons second rest => simp

/-- A data type is settled exactly when the view lists its name after the import
with a definition that shows no difference. -/
theorem settled_iff (names : FreshTypeNames view data) {prior rest : List GhidraDataType}
    {dt : GhidraDataType} (position : data.dataTypes = prior ++ dt :: rest) :
    Settled view data prior dt ↔
      ∃ definition, ((applyToView view data).1.types.lookup dt.name).map RegisteredType.definition =
        some definition ∧ Unchanged (applyToView view data).1 dt.name definition dt := by
  have member : dt ∈ data.dataTypes := position ▸ List.mem_append_right prior List.mem_cons_self
  have fresh := names.fresh dt member
  rw [lookup_imported_of_fresh fresh, lookup_afterTypes names.unique position]
  unfold Settled
  by_cases registers : Registers dt
  · simp only [registers, true_and, not_true_eq_false, false_and, or_false, if_true, Option.some.injEq,
      exists_eq_left']
    have sameHost : (applyToView view data).1.host =
        (prior.foldl applyDataType (beforeTypes view data)).host :=
      (applyToView_host view data).trans (foldl_dataTypes_host prior).symm
    have structures (isUnion : Bool) (width : Nat) :=
      unchanged_structure_iff _ _ sameHost dt.name isUnion width dt
    rw [knows_eq_knownAfter, foldl_dataTypes_host] at structures
    obtain ⟨_, kind | kind | kind | ⟨kind, _⟩⟩ := registers
    · simp only [kind, definitionOf, true_or, forall_const]
      exact (structures false _).symm
    · simp only [kind, definitionOf, or_true, forall_const]
      exact (structures true _).symm
    · simp only [kind, definitionOf]
      exact iff_of_true (by simp) (unchanged_enumeration _ _ _ dt)
    · simp only [kind, definitionOf]
      exact iff_of_true (by simp) (unchanged_typedef _ _ _ dt)
  · have own : view.autoTypes.lookup dt.name = none :=
      AList.lookup_eq_none.mpr fun held => fresh (BinaryView.mem_types.mpr (.inr held))
    simp only [registers, false_and, not_false_eq_true, true_and, false_or, if_false, lookup_beforeTypes, own,
      Option.map_none, Option.or_none, EquateStandsIn]
    cases data.equates.reverse.find? (fun eq => decide (EquateRegisters eq ∧ eq.name = dt.name)) with
    | none => simp
    | some eq => simp [equate_stands_in_iff]

end Import

/-! ## The untouched check-in -/

private theorem foldl_deletions_eq_nil (view : BinaryView) (entries : List (String × GhidraDataType))
    (queued : List DataTypeChange) :
    entries.foldl (queueTypeDeletion view) queued = [] ↔
      queued = [] ∧ ∀ entry ∈ entries, entry.1 ∈ view.types := by
  induction entries generalizing queued with
  | nil => simp
  | cons entry rest ih =>
    rw [List.foldl_cons, ih, queueTypeDeletion]
    simp only [List.append_eq_nil_iff, List.forall_mem_cons, and_assoc]
    apply and_congr_right
    rintro rfl
    apply and_congr_left'
    unfold typeDeletion
    by_cases held : entry.1 ∈ view.types <;> simp [held]

theorem collectDataTypes_eq_nil (state : CheckinState) (view : BinaryView) :
    collectDataTypes state view = [] ↔
      (∀ name registered, view.types.lookup name = some registered →
        typeChange state view name registered = none) ∧
      ∀ name base, state.ghidraTypesByName.lookup name = some base → name ∈ view.types := by
  rw [collectDataTypes, foldl_deletions_eq_nil, collectTypeEdits, List.filterMap_eq_nil_iff]
  simp only [Prod.forall, Table.mem_items]

private theorem typeChange_of_baseline {state : CheckinState} {view : BinaryView} {base : GhidraDataType}
    {registered : RegisteredType} (named : base.name ≠ "") (plain : startsWith base.name "__" = false)
    (held : state.ghidraTypesByName.lookup base.name = some base) :
    typeChange state view base.name registered = none ↔
      Unchanged view base.name registered.definition base := by
  have member : base.name ∈ state.ghidraTypesByName := AList.lookup_isSome.mp (by simp [held])
  unfold typeChange Unchanged
  simp only [named, plain, member, held, not_true_eq_false, and_false, Bool.false_eq_true, or_self, if_false]
  cases describeType view base.name registered.definition with
  | none => simp
  | some change => simp

private theorem typeChange_of_own {state : CheckinState} {view : BinaryView} {name : String}
    {registered : RegisteredType} (own : name ∉ state.ghidraTypesByName) :
    typeChange state view name registered = none ↔
      name ∉ view.userTypes ∨ name = "" ∨ startsWith name "__" = true ∨ ¬Checkable registered.definition := by
  have held : state.ghidraTypesByName.lookup name = none := AList.lookup_eq_none.mpr own
  rw [← describeType_eq_none view name]
  unfold typeChange
  by_cases skipped : name = "" ∨ startsWith name "__" = true
  · rcases skipped with unnamed | reserved
    · simp [unnamed]
    · simp [reserved]
  · obtain ⟨named, plain⟩ := not_or.mp skipped
    by_cases user : name ∈ view.userTypes
    · simp only [named, plain, user, held, if_false, not_true_eq_false, false_and, false_or]
      cases describeType view name registered.definition <;> simp
    · simp [named, plain, user, own]

private theorem baseline_lookup {data : GhidraDbExport} {view : BinaryView} {repo folder item : String}
    (unique : (data.dataTypes.map GhidraDataType.name).Nodup) {name : String} {base : GhidraDataType} :
    (store (applyToView view data).2 repo folder item).ghidraTypesByName.lookup name = some base ↔
      base ∈ data.dataTypes ∧ base.name = name := by
  change (Table.writeAll ∅ GhidraDataType.name id data.dataTypes).lookup name = some base ↔ _
  constructor
  · intro found
    rw [Table.lookup_writeAll] at found
    simp only [AList.lookup_empty, Option.or_none, Option.map_id, id_eq] at found
    exact ⟨List.mem_reverse.mp (List.mem_of_find?_eq_some found), by simpa using List.find?_some found⟩
  · rintro ⟨member, rfl⟩
    exact Table.lookup_writeAll_of_mem member fun other held same =>
      List.inj_on_of_nodup_map unique held member same

section
variable {view : BinaryView} {data : GhidraDbExport} {repo folder item : String}

/-- A type that was not exported is not in the baseline. -/
private theorem own_not_in_baseline (names : FreshTypeNames view data) {name : String}
    (absent : ∀ dt ∈ data.dataTypes, dt.name ≠ name) :
    name ∉ (store (applyToView view data).2 repo folder item).ghidraTypesByName := by
  intro held
  obtain ⟨base, found⟩ := Option.isSome_iff_exists.mp (AList.lookup_isSome.mpr held)
  obtain ⟨member, same⟩ := (baseline_lookup names.unique).mp found
  exact absent base member same

/-- The user's own types stay what they are. -/
private theorem lookup_own {name : String} (held : name ∈ view.userTypes) :
    (applyToView view data).1.types.lookup name = view.userTypes.lookup name := by
  have kept : name ∈ (applyToView view data).1.userTypes := by rwa [applyToView_userTypes]
  rw [BinaryView.types, AList.lookup_union_left kept, applyToView_userTypes]

/-- Of the types that were not exported, a check-in adds none exactly when the
user has none that it would add. -/
private theorem own_types_unchanged_iff (names : FreshTypeNames view data) :
    (∀ name registered, (∀ dt ∈ data.dataTypes, dt.name ≠ name) →
      (applyToView view data).1.types.lookup name = some registered →
        typeChange (store (applyToView view data).2 repo folder item) (applyToView view data).1 name registered =
          none) ↔ NoOwnTypes view := by
  constructor
  · intro unchanged name registered found
    have held : name ∈ view.userTypes := AList.lookup_isSome.mp (by simp [found])
    have absent : ∀ dt ∈ data.dataTypes, dt.name ≠ name := fun dt member same =>
      names.fresh dt member (BinaryView.mem_types.mpr (.inl (same ▸ held)))
    have settled := (typeChange_of_own (own_not_in_baseline names absent)).mp
      (unchanged name registered absent ((lookup_own held).trans found))
    rw [applyToView_userTypes] at settled
    exact settled.resolve_left (fun gone => gone held)
  · intro noOwn name registered absent found
    refine (typeChange_of_own (own_not_in_baseline names absent)).mpr ?_
    rw [applyToView_userTypes]
    by_cases held : name ∈ view.userTypes
    · rw [lookup_own held] at found
      exact .inr (noOwn name registered found)
    · exact .inl held

/-- The exported types are all there and unchanged exactly when each is settled. -/
private theorem exported_types_unchanged_iff (names : FreshTypeNames view data) :
    (∀ dt ∈ data.dataTypes, ∃ registered, (applyToView view data).1.types.lookup dt.name = some registered ∧
      typeChange (store (applyToView view data).2 repo folder item) (applyToView view data).1 dt.name registered =
        none) ↔
      ∀ prior dt rest, data.dataTypes = prior ++ dt :: rest → Settled view data prior dt := by
  have compared {dt : GhidraDataType} (member : dt ∈ data.dataTypes) (registered : RegisteredType) :
      typeChange (store (applyToView view data).2 repo folder item) (applyToView view data).1 dt.name registered =
        none ↔ Unchanged (applyToView view data).1 dt.name registered.definition dt :=
    typeChange_of_baseline (names.named dt member) (names.plain dt member)
      ((baseline_lookup names.unique).mpr ⟨member, rfl⟩)
  constructor
  · intro unchanged prior dt rest position
    have member : dt ∈ data.dataTypes := position ▸ List.mem_append_right prior List.mem_cons_self
    obtain ⟨registered, found, same⟩ := unchanged dt member
    refine (settled_iff names position).mpr ⟨registered.definition, by simp [found], ?_⟩
    exact (compared member registered).mp same
  · intro settled dt member
    obtain ⟨prior, rest, position⟩ := List.append_of_mem member
    obtain ⟨definition, definedAs, unchanged⟩ := (settled_iff names position).mp (settled prior dt rest position)
    obtain ⟨registered, found, rfl⟩ := Option.map_eq_some_iff.mp definedAs
    exact ⟨registered, found, (compared member registered).mpr unchanged⟩

end

/-- An untouched check-in queues no type change exactly when the view holds no
checkable type of the user's own and every exported type is settled. -/
theorem untouched_checkin_changes_no_type_iff (view : BinaryView) (data : GhidraDbExport)
    (repo folder item : String) (names : FreshTypeNames view data) :
    (untouchedPreview view data repo folder item).dataTypeChanges = [] ↔
      item = "" ∨ (NoOwnTypes view ∧
        ∀ prior dt rest, data.dataTypes = prior ++ dt :: rest → Settled view data prior dt) := by
  unfold untouchedPreview collectCheckinChanges
  by_cases none : item = ""
  · simp [store, none]
  have stored : (store (applyToView view data).2 repo folder item).checkinItem ≠ "" := none
  rw [if_neg stored]
  simp only [none, false_or, collectDataTypes_eq_nil]
  rw [← @own_types_unchanged_iff view data repo folder item names,
    ← @exported_types_unchanged_iff view data repo folder item names]
  constructor
  · rintro ⟨unchanged, present⟩
    refine ⟨fun name registered _ => unchanged name registered, ?_⟩
    intro dt member
    have held := present dt.name dt ((baseline_lookup names.unique).mpr ⟨member, rfl⟩)
    obtain ⟨registered, found⟩ := Option.isSome_iff_exists.mp (AList.lookup_isSome.mpr held)
    exact ⟨registered, found, unchanged dt.name registered found⟩
  · rintro ⟨own, exported⟩
    constructor
    · intro name registered found
      by_cases listed : ∃ dt ∈ data.dataTypes, dt.name = name
      · obtain ⟨dt, member, rfl⟩ := listed
        obtain ⟨other, same, unchanged⟩ := exported dt member
        rw [found] at same
        cases same
        exact unchanged
      · exact own name registered (fun dt member same => listed ⟨dt, member, same⟩) found
    · intro name base held
      obtain ⟨member, rfl⟩ := (baseline_lookup names.unique).mp held
      obtain ⟨registered, found, _⟩ := exported base member
      exact AList.lookup_isSome.mp (by simp [found])

/-- A list node. The struct's own name is not known yet when its member is
resolved, so the member becomes a pointer to void. -/
def listNodeExport : GhidraDbExport :=
  { dataTypes := [
      { id := 1, kind := .struct, name := "Node", size := 8
        members := [{ name := "next", size := 8, typeName := "Node *" }] }] }

theorem list_node_is_updated :
    FreshTypeNames {} listNodeExport ∧
      (∀ dt ∈ listNodeExport.dataTypes, ∀ m ∈ dt.members, m.typeName = dt.name ++ " *") ∧
      (untouchedPreview {} listNodeExport "r" "/" "prog").dataTypeChanges ≠ [] := by
  refine ⟨?_, by decide, by decide +kernel⟩
  constructor <;> decide

/-- A struct of primitives, then one that points to it, an enum and a typedef. -/
def orderedExport : GhidraDbExport :=
  { dataTypes := [
      { id := 1, kind := .struct, name := "Point", size := 8
        members := [
          { name := "x", size := 4, typeName := "int" },
          { name := "y", offset := 4, size := 4, typeName := "dword" }] },
      { id := 2, kind := .struct, name := "Path", size := 24
        members := [
          { name := "first", size := 8, typeName := "Point *" },
          { name := "rest", offset := 8, size := 16, typeName := "Point[2]" }] },
      { id := 3, kind := .enum, name := "Color", size := 4, values := [{ name := "RED", value := 0 }] },
      { id := 4, kind := .typedef, name := "Track", size := 24, underlyingTypeName := "Path" }] }

theorem ordered_names_fresh : FreshTypeNames {} orderedExport := by
  constructor <;> decide

theorem ordered_export_settles_iff :
    (untouchedPreview {} orderedExport "r" "/" "prog").dataTypeChanges = [] ↔
      "prog" = "" ∨ (NoOwnTypes {} ∧
        ∀ prior dt rest, orderedExport.dataTypes = prior ++ dt :: rest → Settled {} orderedExport prior dt) :=
  untouched_checkin_changes_no_type_iff {} orderedExport "r" "/" "prog" ordered_names_fresh

end GhidraBridge.TypeBaseline
