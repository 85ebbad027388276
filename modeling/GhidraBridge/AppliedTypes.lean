import GhidraBridge.AppliedSteps

/-! Types that are built as asked. The build of an entry skips what throws; where nothing
does, every member and value the entry has is in the new type, and stays there while no
type name changes what it spells. -/
namespace GhidraBridge.AppliedTypes
open Lib Lib.Fold ProgramApplier AppliedEffects AppliedSteps

variable {types : TypeLibrary} {store : TypeStore} {manager : DataTypeManager}

/-- A name that spells a type resolves to it. -/
theorem resolveDataType_of_given {types : TypeLibrary} {manager : DataTypeManager} {text : String} {type : DataTypeRef}
    (named : text ≠ "") (given : givenType types manager text = some type) :
    resolveDataType types manager text = some (some type) := by
  rw [givenType] at given
  rw [resolveDataType, if_neg named]
  dsimp only at given ⊢
  cases stored : storedRef manager (String.ofList (normalizePrimitives types (trim text.toList))) with
  | some found =>
    rw [stored, Option.some_or] at given
    rw [given]
  | none =>
    rw [stored, Option.none_or] at given
    rw [given]

/-! ## Members and values -/

section Build
variable {s u next : Layout} {mel vel el : Json}

theorem resolveDataType_of_spelled {text : String} {type : DataTypeRef}
    (spelled : spelledType types manager text = some type) :
    resolveDataType types manager text = some (some type) ∧ givenType types manager text = some type := by
  rw [spelledType] at spelled
  split at spelled
  · cases spelled
  · rename_i named
    exact ⟨resolveDataType_of_given named spelled, spelled⟩

theorem memberDataType_of_spelled {text : String} {type : DataTypeRef}
    (spelled : spelledType types manager text = some type)
    (size : Int32) : memberDataType types manager text size = some type := by
  rw [memberDataType, (resolveDataType_of_spelled spelled).1]
  rfl

private theorem appended {c : Component} (components : next.components = s.components ++ [c]) :
    (∀ other, other ∈ s.components → other ∈ next.components) ∧ c ∈ next.components := by
  rw [components]
  exact ⟨fun _ member => List.mem_append_left _ member, List.mem_append_right _ (List.mem_singleton_self c)⟩

theorem memberLands_places (laws : TypeLaws types store) (landed : memberLands types manager s mel = some next) :
    placeMember types manager s mel = some next ∧ (∀ c, c ∈ s.components → c ∈ next.components) ∧
      ∃ c, c ∈ next.components ∧ MemberShown types manager True mel c := by
  rw [memberLands] at landed
  split at landed
  · cases landed
  rename_i object
  obtain ⟨name, named, rest⟩ := Option.bind_eq_some_iff.mp landed
  obtain ⟨typeName, typed, rest⟩ := Option.bind_eq_some_iff.mp rest
  obtain ⟨comment, commented, rest⟩ := Option.bind_eq_some_iff.mp rest
  obtain ⟨size, sized, rest⟩ := Option.bind_eq_some_iff.mp rest
  obtain ⟨offset, placed, rest⟩ := Option.bind_eq_some_iff.mp rest
  obtain ⟨type, spelled, rest⟩ := Option.bind_eq_some_iff.mp rest
  dsimp only at rest
  generalize measured : (if 0 < size then size else types.getLength manager type) = length at rest
  split at rest
  · cases rest
  rename_i fits
  rw [not_or, not_ne_iff, not_and] at fits
  obtain ⟨ofLength, beyond⟩ := fits
  have shown (stands : Int32) (here : 0 ≤ offset → stands = offset) :
      MemberShown types manager True mel ⟨nullIfEmpty name, stands, length, type, nullIfEmpty comment⟩ := by
    refine ⟨⟨name, named, rfl⟩, ⟨typeName, typed, (resolveDataType_of_spelled spelled).2⟩,
      ⟨comment, commented, rfl⟩, ?_, ?_⟩
    · intro given read positive
      rw [sized] at read
      cases read
      exact measured.symm.trans (if_pos positive)
    · intro _ given read nonneg
      rw [placed] at read
      cases read
      exact here nonneg
  rw [placeMember, if_neg object, named, typed, commented, sized, placed]
  simp only [Option.bind_eq_bind, Option.bind_some]
  rw [memberDataType_of_spelled spelled, Option.bind_some, measured]
  by_cases nonneg : 0 ≤ offset
  · rw [if_pos nonneg] at rest
    obtain ⟨kept, there⟩ := appended (laws.insertAtOffset (Int32.not_lt.mp (beyond nonneg)) ofLength rest)
    rw [if_pos nonneg, rest]
    exact ⟨rfl, kept, _, there, shown offset fun _ => rfl⟩
  · rw [if_neg nonneg] at rest
    obtain ⟨stands, components⟩ := laws.add ofLength rest
    obtain ⟨kept, there⟩ := appended components
    rw [if_neg nonneg, rest]
    exact ⟨rfl, kept, _, there, shown stands fun given => absurd given nonneg⟩

theorem unionMemberLands_adds (laws : TypeLaws types store)
    (landed : unionMemberLands types manager u mel = some next) :
    addUnionMember types manager u mel = some next ∧ (∀ c, c ∈ u.components → c ∈ next.components) ∧
      ∃ c, c ∈ next.components ∧ MemberShown types manager False mel c := by
  rw [unionMemberLands] at landed
  split at landed
  · cases landed
  rename_i object
  obtain ⟨name, named, rest⟩ := Option.bind_eq_some_iff.mp landed
  obtain ⟨typeName, typed, rest⟩ := Option.bind_eq_some_iff.mp rest
  obtain ⟨comment, commented, rest⟩ := Option.bind_eq_some_iff.mp rest
  obtain ⟨size, sized, rest⟩ := Option.bind_eq_some_iff.mp rest
  obtain ⟨type, spelled, rest⟩ := Option.bind_eq_some_iff.mp rest
  dsimp only at rest
  generalize measured : (if 0 < size then size else types.getLength manager type) = length at rest
  split at rest
  · cases rest
  rename_i fits
  obtain ⟨stands, components⟩ := laws.addToUnion (not_ne_iff.mp fits) rest
  obtain ⟨kept, there⟩ := appended components
  rw [addUnionMember, if_neg object, named, typed, commented, sized]
  simp only [Option.bind_eq_bind, Option.bind_some]
  rw [memberDataType_of_spelled spelled, Option.bind_some, measured, rest]
  refine ⟨rfl, kept, _, there, ⟨name, named, rfl⟩, ⟨typeName, typed, (resolveDataType_of_spelled spelled).2⟩,
    ⟨comment, commented, rfl⟩, ?_, nofun⟩
  intro given read positive
  rw [sized] at read
  cases read
  exact measured.symm.trans (if_pos positive)

theorem valueLands_adds (laws : TypeLaws types store) {length : Int32} {entries after : List EnumEntry}
    (landed : valueLands types length entries vel = some after) :
    addValue types length entries vel = some after ∧ (∀ e, e ∈ entries → e ∈ after) ∧
      ∃ e, e ∈ after ∧ ValueShown vel e := by
  rw [valueLands] at landed
  split at landed
  · cases landed
  rename_i object
  obtain ⟨name, named, rest⟩ := Option.bind_eq_some_iff.mp landed
  obtain ⟨value, valued, rest⟩ := Option.bind_eq_some_iff.mp rest
  obtain ⟨comment, commented, rest⟩ := Option.bind_eq_some_iff.mp rest
  split at rest
  · cases rest
  rename_i filled
  have members := laws.addEntry rest
  refine ⟨?_, fun e member => (members e).mpr (.inl member), _, (members _).mpr (.inr rfl), named, valued, comment,
    commented, rfl⟩
  rw [addValue, if_neg object, named]
  rw [longOr] at valued
  cases given : vel.get? "value" with
  | none =>
    rw [given] at valued
    cases valued
    simp only [Option.bind_eq_bind, Option.bind_some, commented, if_neg filled, rest]
    rfl
  | some member =>
    rw [given] at valued
    simp only [Option.bind_eq_bind, Option.bind_some, show member.getAsLong = some value from valued, commented,
      if_neg filled, rest]
    rfl

/-! ## Whole types -/

/-- The bytes behind the last member come to the size asked for. -/
theorem sizeReached_shown (laws : TypeLaws types store) {size : Int32} (read : intOr el "size" 0 = some size)
    (reached : sizeReached el size s = true) :
    ∃ final,
      (if types.structureLength s < size then types.growStructure s (size - types.structureLength s) else s) = final ∧
      final.components = s.components ∧ SizeShown el final.length := by
  simp only [sizeReached, Bool.and_eq_true, Bool.or_eq_true, decide_eq_true_eq] at reached
  obtain ⟨nonneg, given⟩ := reached
  rw [laws.structureLength]
  rw [intOr] at read
  cases held : el.get? "size" with
  | none =>
    -- no size is asked for, and nothing grows
    rw [held] at read
    cases read
    refine ⟨s, if_neg ?_, rfl, fun wanted asked => ?_⟩
    · split
      · decide
      · exact Int32.not_lt.mpr nonneg
    · rw [held] at asked
      cases asked
  | some member =>
    rw [held] at read given
    obtain ⟨within, filled⟩ := given.resolve_left (by simp)
    have shown {length : Int32} (whole : length = size) : SizeShown el length := by
      intro wanted asked
      rw [held] at asked
      exact whole.trans (Option.some.inj (read.symm.trans (Option.some.inj asked)))
    by_cases empty : s.length = 0
    · have zero : size = 0 := filled.resolve_left (by simp [empty])
      rw [if_pos empty, zero]
      exact ⟨s, if_neg (by decide), rfl, shown (empty.trans zero.symm)⟩
    rw [if_neg empty]
    exact ⟨_, grown_to laws.growStructure nonneg within, rfl, shown rfl⟩

theorem landing_shown (laws : TypeLaws types store) {kind : String} {content : TypeContent}
    (landed : landing types manager kind el = some content) :
    rebuild types manager kind el = some content ∧ ContentShown types manager kind el content := by
  rw [landing] at landed
  rw [rebuild, ContentShown]
  by_cases struct : kind = "struct"
  · rw [if_pos struct] at landed
    rw [if_pos struct, if_pos struct]
    obtain ⟨size, sized, rest⟩ := Option.bind_eq_some_iff.mp landed
    obtain ⟨members, listed, rest⟩ := Option.bind_eq_some_iff.mp rest
    obtain ⟨s, run, rest⟩ := Option.bind_eq_some_iff.mp rest
    dsimp only at rest
    by_cases reached : sizeReached el size s = true
    · rw [if_pos reached] at rest
      obtain ⟨final, made, same, sizeShown⟩ := sizeReached_shown laws sized reached
      have each := fun (s : Layout) mel (next : Layout) => @memberLands_places types store manager s next mel laws
      obtain ⟨runs, -, shown⟩ := foldlM_leaves each run
      rw [made] at rest
      cases rest
      refine ⟨?_, final, members, rfl, sizeShown, listed, ?_⟩
      · rw [sized, listed]
        simp only [Option.bind_eq_bind, Option.bind_some, runs, made]
        rfl
      · intro mel member
        obtain ⟨c, there, told⟩ := shown mel member
        exact ⟨c, same ▸ there, told⟩
    · rw [if_neg reached] at rest
      cases rest
  rw [if_neg struct] at landed
  rw [if_neg struct, if_neg struct]
  by_cases union : kind = "union"
  · rw [if_pos union] at landed
    rw [if_pos union, if_pos union]
    obtain ⟨members, listed, rest⟩ := Option.bind_eq_some_iff.mp landed
    obtain ⟨u, run, made⟩ := Option.bind_eq_some_iff.mp rest
    cases made
    have each := fun (u : Layout) mel (next : Layout) => @unionMemberLands_adds types store manager u next mel laws
    obtain ⟨runs, -, shown⟩ := foldlM_leaves each run
    refine ⟨?_, u, members, rfl, listed, shown⟩
    rw [listed]
    simp only [Option.bind_eq_bind, Option.bind_some, runs]
    rfl
  rw [if_neg union] at landed
  rw [if_neg union, if_neg union]
  by_cases enum : kind = "enum"
  · rw [if_pos enum] at landed
    rw [if_pos enum, if_pos enum]
    obtain ⟨size, sized, rest⟩ := Option.bind_eq_some_iff.mp landed
    obtain ⟨length, measured, rest⟩ := Option.bind_eq_some_iff.mp rest
    obtain ⟨values, listed, rest⟩ := Option.bind_eq_some_iff.mp rest
    obtain ⟨entries, run, rest⟩ := Option.bind_eq_some_iff.mp rest
    split at rest
    · cases rest
    rename_i whole
    cases rest
    have each := fun (entries : List EnumEntry) vel after => @valueLands_adds types store vel laws length entries after
    obtain ⟨runs, -, shown⟩ := foldlM_leaves each run
    refine ⟨?_, length, entries, values, rfl, fun wanted asked => ?_, listed, shown⟩
    · rw [sized, listed]
      simp only [Option.bind_eq_bind, Option.bind_some, measured, runs]
      rfl
    · obtain ⟨member, held, number⟩ := Option.map_eq_some_iff.mp asked
      rw [intOr, held] at sized
      have same : size = wanted := Option.some.inj (sized.symm.trans number)
      rw [not_and, not_ne_iff] at whole
      exact (whole (by rw [held]; rfl)).trans same
  rw [if_neg enum] at landed
  rw [if_neg enum, if_neg enum]
  by_cases typedef : kind = "typedef"
  · rw [if_pos typedef] at landed
    rw [if_pos typedef, if_pos typedef]
    obtain ⟨under, named, rest⟩ := Option.bind_eq_some_iff.mp landed
    obtain ⟨target, spelled, rfl⟩ := Option.map_eq_some_iff.mp rest
    obtain ⟨resolved, given⟩ := resolveDataType_of_spelled spelled
    refine ⟨?_, under, target, named, given, rfl⟩
    rw [named]
    simp only [Option.bind_eq_bind, Option.bind_some, resolved]
    rfl
  · rw [if_neg typedef] at landed
    cases landed

/-- What is shown stays while no type name of the entry changes what it spells. -/
theorem contentShown_of_names {after : DataTypeManager} {kind : String} {content : TypeContent}
    (kept : ∀ text, NamesType el text → ∀ type, givenType types manager text = some type →
      givenType types after text = some type)
    (shown : ContentShown types manager kind el content) : ContentShown types after kind el content := by
  have member {placed : Prop} {members : List Json} {mel : Json} {c : Component}
      (listed : arrayOr el "members" = some members) (inside : mel ∈ members)
      (told : MemberShown types manager placed mel c) : MemberShown types after placed mel c := by
    obtain ⟨text, read, spelled⟩ := told.type
    exact { told with type := ⟨text, read, kept text (.inr ⟨members, listed, mel, inside, read⟩) c.dataType spelled⟩ }
  rw [ContentShown] at shown ⊢
  split
  · rename_i struct
    rw [if_pos struct] at shown
    obtain ⟨layout, members, same, size, listed, each⟩ := shown
    refine ⟨layout, members, same, size, listed, fun mel inside => ?_⟩
    obtain ⟨c, there, told⟩ := each mel inside
    exact ⟨c, there, member listed inside told⟩
  rename_i struct
  rw [if_neg struct] at shown
  split
  · rename_i union
    rw [if_pos union] at shown
    obtain ⟨layout, members, same, listed, each⟩ := shown
    refine ⟨layout, members, same, listed, fun mel inside => ?_⟩
    obtain ⟨c, there, told⟩ := each mel inside
    exact ⟨c, there, member listed inside told⟩
  rename_i union
  rw [if_neg union] at shown
  split
  · rename_i enum
    rw [if_pos enum] at shown
    exact shown
  rename_i enum
  rw [if_neg enum] at shown
  split
  · rename_i typedef
    rw [if_pos typedef] at shown
    obtain ⟨text, given, read, spelled, same⟩ := shown
    exact ⟨text, given, read, kept text (.inl read) given spelled, same⟩
  · rename_i typedef
    rw [if_neg typedef] at shown
    exact shown

end Build

/-! ## Turns -/

theorem removeType_gone (laws : TypeLaws types store) {name : String} {after : DataTypeManager}
    (removed : store.removeType manager name = some after) : after.getDataType name = none := by
  rw [TypeStore.removeType] at removed
  split at removed
  · rename_i missing
    cases removed
    exact missing
  · exact laws.remove removed

/-- An entry of the types is left out, or counted with the types showing what it asks for. -/
theorem type_counts {space : AddressSpace} {N P : Type} {g : Ghidra space N P} (laws : TypeLaws g.types g.store)
    {start q : Program N P} {applied next : TypesApplied} {el : Json}
    (met : typeMeets g start { q with manager := applied.manager } el)
    (stepped : g.store.applyTypeChange g.types applied el = some next) :
    next = applied ∨
      next.count = applied.count + 1 ∧ typePresent g start { q with manager := next.manager } el := by
  rcases applyTypeChange_cases stepped with rfl | ⟨op, kind, name, operation, kindRead, named, filled, changed, more⟩
  · exact .inl rfl
  have condition := met op kind name operation kindRead named filled
  refine .inr ⟨more, op, kind, name, operation, kindRead, named, ?_⟩
  rcases changed with ⟨rfl, removed⟩ | ⟨keeps, content, stored, made, called, final⟩
  · rw [if_pos rfl] at condition ⊢
    refine ⟨condition ?_, removeType_gone laws removed⟩
    rw [removed]
    exact Option.some_ne_none _
  · rw [if_neg keeps] at condition ⊢
    obtain ⟨lands, kept⟩ := condition content stored made called
    obtain ⟨landed, landing⟩ := Option.isSome_iff_exists.mp lands
    obtain ⟨same, shown⟩ := landing_shown laws landing
    obtain rfl : content = landed := Option.some.inj (made.symm.trans same)
    obtain ⟨record, held, whole⟩ := laws.addDataType called
    rw [final]
    refine ⟨record, held, ?_⟩
    rw [whole]
    exact contentShown_of_names (fun text _ => kept text) shown

end GhidraBridge.AppliedTypes
