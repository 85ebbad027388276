import GhidraBridge.EquateRenames

/-! References added after the renames of the same check-in. They are looked up in
the table the renames leave, where an equate that was renamed has a key the view
has never seen, so a reference to it finds nothing. -/
namespace GhidraBridge.EquateRefAdds
open Lib ProgramApplier EquateRenames

variable {space : AddressSpace} {validName : String → Bool} {rebase : UInt64} {before start table : EquateTable space}
  {renames done : List EquateRename} {adds : List NewEquateRef}

/-! ## A run of added references -/

/-- The entry adds the reference to the equate of the key, if that is there. -/
structure Adds (rebase : UInt64) (a : NewEquateRef) (key : Nat) (ref : space.Address × Int32) : Prop where
  keyed : keyOf a.equateId = some key
  positive : 0 ≤ (a.addr - rebase).toInt64
  addr : space.getAddress (a.addr - rebase) = some ref.1
  opIndex : a.opIndex = ref.2

/-- The same equates, with the references of the entries. -/
structure Gained (rebase : UInt64) (start table : EquateTable space) (adds : List NewEquateRef) : Prop where
  missing : ∀ key, start.records.lookup key = none → table.records.lookup key = none
  held : ∀ key record, start.records.lookup key = some record →
    ∃ refs, table.records.lookup key = some { record with refs } ∧
      ∀ ref, ref ∈ refs ↔ ref ∈ record.refs ∨ ∃ a ∈ adds, Adds rebase a key ref

/-- One entry adds its reference, or has none to add to an equate that is there. -/
private theorem addEquateRef_cases (gained : Gained rebase start table adds) (a : NewEquateRef) :
    (∃ key record addr after, Adds rebase a key (addr, a.opIndex) ∧ table.records.lookup key = some record ∧
      addEquateRef start.byKey table a.equateId (a.addr - rebase) a.opIndex = some after ∧
      RefsAdded table after key record (record.refs.insert (addr, a.opIndex))) ∨
    (addEquateRef start.byKey table a.equateId (a.addr - rebase) a.opIndex = none ∧
      ∀ key (ref : space.Address × Int32), key ∈ start.records → ¬Adds rebase a key ref) := by
  by_cases adds : ∃ key, ∃ ref : space.Address × Int32, key ∈ start.records ∧ Adds rebase a key ref
  · obtain ⟨key, ⟨addr, opIndex⟩, known, keyed, positive, inside, rfl⟩ := adds
    obtain ⟨old, found⟩ := Option.isSome_iff_exists.mp (AList.lookup_isSome.mpr known)
    obtain ⟨refs, held, _⟩ := gained.held key old found
    obtain ⟨after, added, shape⟩ := addReference_of_lookup (addr, a.opIndex) held
    refine .inl ⟨key, _, addr, after, ⟨keyed, positive, inside, rfl⟩, held, ?_, shape⟩
    rw [addEquateRef, keyed, Option.bind_some, byKey_lookup, if_pos known, Option.bind_some,
      if_neg (Int64.not_lt.mpr positive), inside, Option.bind_some]
    exact added
  · refine .inr ⟨?_, fun key ref known adds' => adds ⟨key, ref, known, adds'⟩⟩
    cases mapped : (keyOf a.equateId).bind start.byKey.lookup with
    | none => rw [addEquateRef, mapped]; rfl
    | some key =>
      obtain ⟨probe, keyed, lookup⟩ := Option.bind_eq_some_iff.mp mapped
      rw [byKey_lookup] at lookup
      split at lookup
      · rename_i known
        cases lookup
        rw [addEquateRef, mapped, Option.bind_some]
        by_cases negative : (a.addr - rebase).toInt64 < 0
        · rw [if_pos negative, Option.bind_none]
        · rw [if_neg negative]
          cases inside : space.getAddress (a.addr - rebase) with
          | none => rfl
          | some addr =>
            exact absurd ⟨key, (addr, a.opIndex), known, keyed, Int64.not_lt.mp negative, inside, rfl⟩ adds
      · cases lookup

private theorem Gained.step (gained : Gained rebase start table adds) (a : NewEquateRef) :
    Gained rebase start ((addEquateRef start.byKey table a.equateId (a.addr - rebase) a.opIndex).getD table)
      (adds ++ [a]) := by
  have either {key : Nat} {ref : space.Address × Int32} :
      (∃ b ∈ adds ++ [a], Adds rebase b key ref) ↔ (∃ b ∈ adds, Adds rebase b key ref) ∨ Adds rebase a key ref := by
    simp only [List.mem_append, List.mem_singleton, or_and_right, exists_or, exists_eq_left]
  rcases addEquateRef_cases gained a with ⟨target, found, addr, after, here, lookup, added, shape⟩ | ⟨skipped, none⟩
  · rw [added, Option.getD_some]
    refine ⟨?_, ?_⟩
    · intro key unheld
      have gone := gained.missing key unheld
      rw [shape.lookup, if_neg]
      · exact gone
      · rintro rfl
        rw [gone] at lookup
        cases lookup
    · intro key record held
      obtain ⟨refs, now, members⟩ := gained.held key record held
      rw [shape.lookup]
      split
      · rename_i same
        subst same
        rw [lookup, Option.some.injEq] at now
        refine ⟨refs.insert (addr, a.opIndex), by rw [now], fun ref => ?_⟩
        rw [Roster.mem_insert, members ref, either, or_comm, or_assoc]
        refine or_congr_right (or_congr_right ⟨?_, fun other => ?_⟩)
        · rintro rfl
          exact here
        · have addrs := here.addr.symm.trans other.addr
          exact Prod.ext (Option.some.inj addrs).symm other.opIndex.symm
      · rename_i apart
        refine ⟨refs, now, fun ref => ?_⟩
        rw [members ref, either]
        refine or_congr_right (or_iff_left fun other => apart ?_).symm
        exact Option.some.inj (other.keyed.symm.trans here.keyed)
  · rw [skipped, Option.getD_none]
    refine ⟨gained.missing, fun key record held => ?_⟩
    obtain ⟨refs, now, members⟩ := gained.held key record held
    refine ⟨refs, now, fun ref => ?_⟩
    rw [members ref, either]
    exact or_congr_right (or_iff_left (none key ref (AList.lookup_isSome.mp (by simp [held])))).symm

section Checkin
variable (validName : String → Bool) (rebase : UInt64)

/-- The equates after the added references of a check-in. -/
def afterRefAdds (start : EquateTable space) (adds : List NewEquateRef) : EquatesApplied space :=
  (applyEquateRefAdds start (adds.map (CheckinJson.equateRefEntry rebase))).getD { table := start }

variable {validName rebase}

/-- The entries a check-in sends never throw, and each adds what it can. -/
private theorem applyEquateRefAdd_entry (applied : EquatesApplied space) (a : NewEquateRef) :
    ∃ count, applyEquateRefAdd start.byKey applied (CheckinJson.equateRefEntry rebase a) =
      some ⟨(addEquateRef start.byKey applied.table a.equateId (a.addr - rebase) a.opIndex).getD applied.table,
        count⟩ := by
  have id : (int64Json a.equateId).getAsLong = some a.equateId := Json.getAsLong_toInt a.equateId
  have va : (vaJson rebase a.addr).getAsString.bind parseHexLong = some (a.addr - rebase) :=
    parseHexLong_toHex (a.addr - rebase)
  have opIndex : (int32Json a.opIndex).getAsInt = some a.opIndex := Json.getAsInt_toInt a.opIndex
  unfold applyEquateRefAdd CheckinJson.equateRefEntry
  rw [if_neg (by simp [Json.isObject]), show Json.get? (.obj _) "id" = some (int64Json a.equateId) from rfl,
    show Json.get? (.obj _) "va" = some (vaJson rebase a.addr) from rfl,
    show Json.get? (.obj _) "op_index" = some (int32Json a.opIndex) from rfl]
  dsimp only
  rw [id, va, opIndex]
  dsimp only [Option.bind_eq_bind, Option.bind_some]
  cases addEquateRef start.byKey applied.table a.equateId (a.addr - rebase) a.opIndex with
  | none => exact ⟨applied.count, rfl⟩
  | some table => exact ⟨applied.count + 1, rfl⟩

theorem gained_afterRefAdds (start : EquateTable space) (adds : List NewEquateRef) :
    Gained rebase start (afterRefAdds rebase start adds).table adds := by
  have run (done later : List NewEquateRef) (applied : EquatesApplied space)
      (gained : Gained rebase start applied.table done) :
      ∃ final, (later.map (CheckinJson.equateRefEntry rebase)).foldlM (applyEquateRefAdd start.byKey) applied =
        some final ∧ Gained rebase start final.table (done ++ later) := by
    induction later generalizing done applied with
    | nil => exact ⟨applied, rfl, by rwa [List.append_nil]⟩
    | cons a rest ih =>
      obtain ⟨count, entry⟩ := @applyEquateRefAdd_entry _ start rebase applied a
      rw [List.map_cons, List.foldlM_cons, entry]
      obtain ⟨final, runs, gains⟩ := ih (done ++ [a]) ⟨_, count⟩ (gained.step a)
      refine ⟨final, runs, ?_⟩
      rw [← List.append_cons] at gains
      exact gains
  have nothing : Gained rebase start start [] := by
    refine ⟨fun _ missing => missing, fun key record held => ⟨record.refs, held, fun ref => ?_⟩⟩
    simp
  obtain ⟨final, runs, gains⟩ := run [] adds { table := start } nothing
  rw [afterRefAdds, applyEquateRefAdds, runs]
  exact gains

/-! ## Renames and references of one check-in -/

/-- The name an equate has after the check-in: that of the first entry that asks for
another one, else its own. -/
def finalName (renames : List EquateRename) (key : Nat) (old : EquateRecord space) : String :=
  ((renames.find? fun r => keyOf r.id = some key ∧ r.name ≠ "").map EquateRename.name).getD old.name

theorem finalName_of_turn {r : EquateRename} {key : Nat} {old : EquateRecord space}
    (turn : Turn before renames done r key old) : finalName renames key old = r.name := by
  obtain ⟨later, split⟩ := turn.split
  have found : (renames.find? fun r => keyOf r.id = some key ∧ r.name ≠ "") = some r := by
    rw [List.find?_eq_some_iff_append]
    refine ⟨by simp [turn.keyed, turn.named], done, later, split, fun s member => ?_⟩
    rw [Bool.not_eq_true', decide_eq_false_iff_not]
    exact fun asks => turn.first ⟨s, member, asks⟩
  rw [finalName, found]
  rfl

theorem finalName_of_unattempted {key : Nat} (old : EquateRecord space) (untried : ¬Attempted renames key) :
    finalName renames key old = old.name := by
  have absent : (renames.find? fun r => keyOf r.id = some key ∧ r.name ≠ "") = none := by
    rw [List.find?_eq_none]
    intro r member asks
    exact untried ⟨r, member, of_decide_eq_true asks⟩
  rw [finalName, absent]
  rfl

/-- An equate some entry asks to rename has the turn of the first of them. -/
theorem turn_of_attempted {key : Nat} {old : EquateRecord space} (held : before.records.lookup key = some old)
    (tried : Attempted renames key) : ∃ done r, Turn before renames done r key old := by
  obtain ⟨s, member, asks⟩ := tried
  cases found : renames.find? fun r => keyOf r.id = some key ∧ r.name ≠ "" with
  | none => exact absurd (decide_eq_true asks) (List.find?_eq_none.mp found s member)
  | some r =>
    obtain ⟨matching, done, later, split, earlier⟩ := List.find?_eq_some_iff_append.mp found
    obtain ⟨keyed, named⟩ := of_decide_eq_true matching
    refine ⟨done, r, ⟨later, split⟩, named, keyed, held, ?_⟩
    rintro ⟨t, tMember, tAsks⟩
    simpa [tAsks] using earlier t tMember

section
variable (validName : String → Bool) (rebase : UInt64) (before : EquateTable space) (renames : List EquateRename)
  (adds : List NewEquateRef)

/-- The equates after both arrays of a check-in. -/
def afterEquates : EquateTable space :=
  (afterRefAdds rebase (afterRenames validName before renames).table adds).table

/-- Every equate is there under its final name, with its value, the references it had
and those added to its id. -/
def NothingLost : Prop :=
  ∀ key old, before.records.lookup key = some old →
    ∃ place record, (afterEquates validName rebase before renames adds).records.lookup place = some record ∧
      record.name = finalName renames key old ∧ record.value = old.value ∧ (∀ ref ∈ old.refs.list, ref ∈ record.refs) ∧
      ∀ a ∈ adds, keyOf a.equateId = some key → 0 ≤ (a.addr - rebase).toInt64 →
        ∃ addr, space.getAddress (a.addr - rebase) = some addr ∧ (addr, a.opIndex) ∈ record.refs

/-- No two equates end under one name. -/
def FinalNamesDistinct : Prop :=
  ∀ key old other found, before.records.lookup key = some old → before.records.lookup other = some found →
    finalName renames key old = finalName renames other found → key = other

instance : Decidable (FinalNamesDistinct before renames) :=
  decidable_of_iff (∀ entry ∈ before.records.items, ∀ other ∈ before.records.items,
    finalName renames entry.1 entry.2 = finalName renames other.1 other.2 → entry.1 = other.1) (by
      constructor
      · intro each key old other found held otherHeld
        exact each (key, old) (Table.mem_items.mpr held) (other, found) (Table.mem_items.mpr otherHeld)
      · rintro each ⟨key, old⟩ listed ⟨other, found⟩ otherListed
        exact each key old other found (Table.mem_items.mp listed) (Table.mem_items.mp otherListed))

/-- The first rename of each equate asks for a valid name, and an equate that has the
name is itself renamed earlier in the list. -/
def RenamedInOrder : Prop :=
  ∀ done r key old, Turn before renames done r key old →
    validName r.name = true ∧ Vacated before done key r.name

/-- Every reference is to an address of the space, and where its equate is renamed it
is a reference the equate already has. -/
def AddsReach : Prop :=
  ∀ a ∈ adds, ∀ key old, keyOf a.equateId = some key → before.records.lookup key = some old →
    0 ≤ (a.addr - rebase).toInt64 →
    ∃ addr, space.getAddress (a.addr - rebase) = some addr ∧
      (Attempted renames key → (addr, a.opIndex) ∈ old.refs)

end

/-- An equate has one first rename. -/
theorem turn_unique {earlier : List EquateRename} {r s : EquateRename} {key : Nat} {old was : EquateRecord space}
    (turn : Turn before renames done r key old) (other : Turn before renames earlier s key was) :
    earlier = done ∧ s = r := by
  obtain ⟨later, split⟩ := turn.split
  obtain ⟨rest, otherSplit⟩ := other.split
  rcases List.append_eq_append_iff.mp (split.symm.trans otherSplit) with ⟨gap, front, back⟩ | ⟨gap, front, back⟩
  · cases gap with
    | nil => exact ⟨by simpa using front, (List.cons.inj back).1.symm⟩
    | cons t gap =>
      obtain ⟨rfl, _⟩ := List.cons.inj back
      exact absurd ⟨r, by simp [front], turn.keyed, turn.named⟩ other.first
  · cases gap with
    | nil => exact ⟨by simpa using front.symm, (List.cons.inj back).1⟩
    | cons t gap =>
      obtain ⟨rfl, _⟩ := List.cons.inj back
      exact absurd ⟨s, by simp [front], other.keyed, other.named⟩ turn.first

/-- Where a record of the end comes from, if it has the final name of a renamed
equate: it was made in that equate's turn. -/
private theorem FinalNamesDistinct.made_in_turn (distinct : FinalNamesDistinct before renames) {r : EquateRename}
    {key place : Nat} {old record : EquateRecord space} (turn : Turn before renames done r key old)
    (found : (afterEquates validName rebase before renames adds).records.lookup place = some record)
    (named : record.name = finalName renames key old) :
    before.nextKey ≤ place ∧ Makes validName before done r key ∧
      ∀ ref, ref ∈ record.refs ↔ ref ∈ old.refs ∨ ∃ a ∈ adds, Adds rebase a place ref := by
  have gained := @gained_afterRefAdds _ rebase (afterRenames validName before renames).table adds
  cases middle : (afterRenames validName before renames).table.records.lookup place with
  | none =>
    rw [afterEquates, gained.missing place middle] at found
    cases found
  | some between =>
    obtain ⟨refs, now, members⟩ := gained.held place between middle
    rw [afterEquates, now, Option.some.injEq] at found
    subst found
    rcases (along_afterRenames renames).origin place between middle with
      ⟨original, untried⟩ | ⟨new, earlier, s, source, was, other, makes, rfl⟩
    · have same := distinct place between key old original turn.held
        ((finalName_of_unattempted between untried).trans named)
      obtain ⟨later, split⟩ := turn.split
      exact absurd ⟨r, by simp [split], same ▸ turn.keyed, turn.named⟩ untried
    · obtain rfl : source = key := distinct source was key old other.held turn.held
        ((finalName_of_turn other).trans named)
      obtain ⟨rfl, rfl⟩ := turn_unique turn other
      obtain rfl : was = old := Option.some.inj (other.held.symm.trans turn.held)
      exact ⟨new, makes, members⟩

private theorem NothingLost.in_order (nothing : NothingLost validName rebase before renames adds)
    (distinct : FinalNamesDistinct before renames) : RenamedInOrder validName before renames := by
  intro done r key old turn
  obtain ⟨place, record, found, named, _⟩ := nothing key old turn.held
  obtain ⟨_, makes, _⟩ := distinct.made_in_turn turn found named
  exact ⟨makes.1, vacated_of_nameFree makes.2⟩

private theorem NothingLost.adds_reach (nothing : NothingLost validName rebase before renames adds)
    (distinct : FinalNamesDistinct before renames)
    (known : ∀ a ∈ adds, ∃ key ∈ before.records, keyOf a.equateId = some key) :
    AddsReach rebase before renames adds := by
  intro a member key old keyed held positive
  obtain ⟨place, record, found, named, _, _, attached⟩ := nothing key old held
  obtain ⟨addr, inside, listed⟩ := attached a member keyed positive
  refine ⟨addr, inside, fun tried => ?_⟩
  obtain ⟨done, r, turn⟩ := turn_of_attempted held tried
  obtain ⟨new, _, members⟩ := distinct.made_in_turn turn found named
  rcases (members _).mp listed with had | ⟨b, bMember, bAdds⟩
  · exact had
  · -- The key of the new record is none of those the adds were sent for.
    obtain ⟨target, targetHeld, targetKeyed⟩ := known b bMember
    have same : target = place := Option.some.inj (targetKeyed.symm.trans bAdds.keyed)
    have bound := lookup_lt targetHeld
    omega

/-- A rename whose name is free in time makes the equate again. -/
private theorem RenamedInOrder.makes (inOrder : RenamedInOrder validName before renames)
    (distinct : FinalNamesDistinct before renames) {r : EquateRename} {key : Nat} {old : EquateRecord space}
    (turn : Turn before renames done r key old) : Makes validName before done r key := by
  obtain ⟨valid, vacated⟩ := inOrder done r key old turn
  refine ⟨valid, nameFree_of_vacated vacated ?_⟩
  intro earlier s source was other same
  obtain ⟨later, split⟩ := turn.split
  obtain ⟨rest, otherSplit⟩ := other.split
  have later : Turn before renames earlier s source was := split ▸ other.append (r :: later)
  obtain rfl := distinct source was key old other.held turn.held
    ((finalName_of_turn later).trans (same.trans (finalName_of_turn turn).symm))
  exact turn.first ⟨s, by simp [otherSplit], other.keyed, other.named⟩

/-- With distinct final names, a check-in loses no rename, reference or value of an
equate exactly when its renames come in an order that frees each name in time and
it adds no new reference to an equate it renames. -/
theorem checkin_loses_no_equate_update_iff (validName : String → Bool) (rebase : UInt64) (before : EquateTable space)
    (renames : List EquateRename) (adds : List NewEquateRef)
    (known : ∀ a ∈ adds, ∃ key ∈ before.records, keyOf a.equateId = some key)
    (distinct : FinalNamesDistinct before renames) :
    NothingLost validName rebase before renames adds ↔
      RenamedInOrder validName before renames ∧ AddsReach rebase before renames adds := by
  constructor
  · intro nothing
    exact ⟨nothing.in_order distinct, nothing.adds_reach distinct known⟩
  · rintro ⟨inOrder, reach⟩ key old held
    have gained := @gained_afterRefAdds _ rebase (afterRenames validName before renames).table adds
    have along := @along_afterRenames _ validName before renames
    by_cases tried : Attempted renames key
    · obtain ⟨done, r, turn⟩ := turn_of_attempted held tried
      obtain ⟨place, _, made⟩ := along.made done r key old turn (inOrder.makes distinct turn)
      obtain ⟨refs, now, members⟩ := gained.held place _ made
      refine ⟨place, _, now, (finalName_of_turn turn).symm, rfl, fun ref had => (members ref).mpr (.inl had), ?_⟩
      intro a member keyed positive
      obtain ⟨addr, inside, had⟩ := reach a member key old keyed held positive
      exact ⟨addr, inside, (members _).mpr (.inl (had tried))⟩
    · obtain ⟨refs, now, members⟩ := gained.held key old (along.kept key old held tried)
      refine ⟨key, _, now, (finalName_of_unattempted old tried).symm, rfl,
        fun ref had => (members ref).mpr (.inl had), ?_⟩
      intro a member keyed positive
      obtain ⟨addr, inside, _⟩ := reach a member key old keyed held positive
      exact ⟨addr, inside, (members _).mpr (.inr ⟨a, member, keyed, positive, inside, rfl⟩)⟩

theorem rename_beside_reference_of_other_equate :
    NothingLost (· ≠ "") 0 twoFlags [⟨0, "FLAG_C"⟩] [⟨1, 4100, 0⟩] := by
  have known : ∀ a ∈ [(⟨1, 4100, 0⟩ : NewEquateRef)], ∃ key ∈ twoFlags.records, keyOf a.equateId = some key := by
    intro a member
    rw [List.mem_singleton] at member
    subst member
    exact ⟨1, by decide +kernel, by decide +kernel⟩
  refine (checkin_loses_no_equate_update_iff (· ≠ "") 0 twoFlags _ _ known (by decide +kernel)).mpr ⟨?_, ?_⟩
  · intro done r key old turn
    obtain ⟨later, split⟩ := turn.split
    cases done with
    | cons first rest => simp at split
    | nil =>
      obtain ⟨rfl, rfl⟩ := List.cons.inj split
      refine ⟨by decide, fun other found held named => ?_⟩
      have unused : twoFlags.getEquate "FLAG_C" = none := by decide +kernel
      exact absurd named (EquateTable.getEquate_eq_none.mp unused other found held)
  · intro a member key old keyed held positive
    rw [List.mem_singleton] at member
    subst member
    obtain rfl : 1 = key := Option.some.inj keyed
    refine ⟨AddressSpace.flat 4100, rfl, ?_⟩
    rintro ⟨r, member, other, _⟩
    rw [List.mem_singleton] at member
    subst member
    exact absurd other (by decide +kernel)

theorem reference_of_renamed_equate_lost :
    FinalNamesDistinct twoFlags [⟨0, "FLAG_C"⟩] ∧ 0 ∈ twoFlags.records ∧ keyOf 0 = some 0 ∧
      ¬NothingLost (· ≠ "") 0 twoFlags [⟨0, "FLAG_C"⟩] [⟨0, 4100, 0⟩] := by
  have distinct : FinalNamesDistinct twoFlags [⟨0, "FLAG_C"⟩] := by decide +kernel
  have known : ∀ a ∈ [(⟨0, 4100, 0⟩ : NewEquateRef)], ∃ key ∈ twoFlags.records, keyOf a.equateId = some key := by
    intro a member
    rw [List.mem_singleton] at member
    subst member
    exact ⟨0, by decide +kernel, by decide +kernel⟩
  refine ⟨distinct, by decide +kernel, by decide +kernel, fun nothing => ?_⟩
  obtain ⟨addr, inside, had⟩ := nothing.adds_reach distinct known ⟨0, 4100, 0⟩ (by simp) 0
    { name := "FLAG_A", value := 1, refs := Roster.ofList [(AddressSpace.flat 4096, 0)] } (by decide +kernel)
    (by decide +kernel) (by decide +kernel)
  obtain rfl : AddressSpace.flat 4100 = addr := Option.some.inj inside
  have listed := had ⟨⟨0, "FLAG_C"⟩, by simp, by decide +kernel, by decide⟩
  exact absurd listed (by decide +kernel)

end Checkin

end GhidraBridge.EquateRefAdds
