import GhidraBridge.EquateTable

/-! Equate renames and new references of one check-in. A rename that meets a name
in use has taken its equate out already, and a reference is looked up by a key that
a rename has given away, so both hold only for the lists in which neither happens. -/
namespace GhidraBridge.EquateRenames
open Lib ProgramApplier

variable {space : AddressSpace} {validName : String → Bool} {table : EquateTable space}

/-! ## The operations by their lookups -/

theorem removeEquate_of_lookup {key : Nat} {record : EquateRecord space}
    (held : table.records.lookup key = some record) : table.removeEquate record.name = table.erase key := by
  rw [EquateTable.removeEquate, EquateTable.getEquate_of_lookup held]

/-- The map of the equates has each key of the table for itself. -/
theorem byKey_lookup (key : Nat) :
    table.byKey.lookup key = if key ∈ table.records then some key else none := by
  have listed : (table.records.items.filterMap fun entry =>
      (table.getEquate entry.2.name).map fun found => (entry.1, found.1)) =
      table.records.items.map fun entry => (entry.1, entry.1) := by
    rw [← List.filterMap_eq_map]
    refine List.filterMap_congr fun entry member => ?_
    rw [EquateTable.getEquate_of_lookup (Table.mem_items.mp member)]
    rfl
  rw [EquateTable.byKey, listed]
  split
  · rename_i held
    obtain ⟨record, found⟩ := Option.isSome_iff_exists.mp (AList.lookup_isSome.mpr held)
    have member : (key, key) ∈ table.records.items.map fun entry => (entry.1, entry.1) :=
      List.mem_map.mpr ⟨(key, record), Table.mem_items.mpr found, rfl⟩
    refine @Table.lookup_writeAll_of_mem _ _ _ _ ∅ Prod.fst Prod.snd _ (key, key) member ?_
    intro pair pairListed same
    obtain ⟨entry, _, rfl⟩ := List.mem_map.mp pairListed
    exact same
  · rename_i missing
    refine Table.lookup_writeAll_of_not_mem ?_
    intro pair member same
    obtain ⟨⟨probe, record⟩, entryListed, rfl⟩ := List.mem_map.mp member
    obtain rfl : probe = key := same
    exact missing (AList.lookup_isSome.mp (by simp [Table.mem_items.mp entryListed]))

/-- Other records keep their place, and the record of the key its name and value. -/
structure RefsAdded (before after : EquateTable space) (key : Nat) (record : EquateRecord space)
    (refs : Roster (space.Address × Int32)) : Prop where
  nextKey : after.nextKey = before.nextKey
  size : after.size = before.size
  lookup : ∀ probe, after.records.lookup probe =
    if probe = key then some { record with refs } else before.records.lookup probe

theorem addReference_of_lookup {key : Nat} {record : EquateRecord space} (ref : space.Address × Int32)
    (held : table.records.lookup key = some record) :
    ∃ after, table.addReference key ref = some after ∧
      RefsAdded table after key record (record.refs.insert ref) := by
  refine ⟨table.setRefs key record held (record.refs.insert ref), ?_, rfl, ?_, fun probe => Table.lookup_set ..⟩
  · unfold EquateTable.addReference
    split
    · rename_i missing
      rw [held] at missing
      cases missing
    · rename_i old found
      rw [held, Option.some.injEq] at found
      subst found
      rfl
  · have here : key ∈ table.records := AList.lookup_isSome.mp (by simp [held])
    rw [EquateTable.size, EquateTable.setRefs, Table.length_items_set, if_pos here]
    rfl

/-- References attached one after the other. -/
theorem attach_refs {key : Nat} {record : EquateRecord space} (refs : List (space.Address × Int32))
    (held : table.records.lookup key = some record) :
    RefsAdded table (refs.foldl (fun current ref => (current.addReference key ref).getD current) table) key record
      (refs.foldl Roster.insert record.refs) := by
  induction refs generalizing table record with
  | nil =>
    refine ⟨rfl, rfl, fun probe => ?_⟩
    split
    · rename_i here
      rw [List.foldl_nil, here, held]
      rfl
    · rfl
  | cons ref rest ih =>
    obtain ⟨after, added, step⟩ := addReference_of_lookup ref held
    have later := @ih after { record with refs := record.refs.insert ref } (by rw [step.lookup, if_pos rfl])
    rw [List.foldl_cons, List.foldl_cons, added, Option.getD_some]
    refine ⟨later.nextKey.trans step.nextKey, later.size.trans step.size, fun probe => ?_⟩
    rw [later.lookup, step.lookup]
    split <;> rfl

/-! ## One rename -/

/-- The rename has an equate to work on. -/
def Finds (before table : EquateTable space) (r : EquateRename) (key : Nat) (old : EquateRecord space) : Prop :=
  r.name ≠ "" ∧ keyOf r.id = some key ∧ key ∈ before.records ∧ table.records.lookup key = some old

/-- No other equate has the name. -/
def NameFree (table : EquateTable space) (key : Nat) (name : String) : Prop :=
  ∀ other found, other ≠ key → table.records.lookup other = some found → found.name ≠ name

/-- The equate is under a new key, with its value and references. -/
structure Recreated (table after : EquateTable space) (key : Nat) (old : EquateRecord space) (name : String) :
    Prop where
  nextKey : after.nextKey = table.nextKey + 1
  size : after.size = table.size
  lookup : ∀ probe, after.records.lookup probe =
    if probe = table.nextKey then some ⟨name, old.value, old.refs⟩
    else if probe = key then none else table.records.lookup probe

section Rename
variable (validName : String → Bool) (before table : EquateTable space) (r : EquateRename)

/-- One rename of a run that started from `before`. -/
def rename : EquateTable space × Bool := renameEquate validName before.byKey table r.id r.name

variable {validName before table r}

theorem rename_idle (idle : ∀ key old, ¬Finds before table r key old) :
    rename validName before table r = (table, false) := by
  unfold rename renameEquate
  split
  · rfl
  · rename_i named
    cases found : (keyOf r.id).bind before.byKey.lookup with
    | none => rfl
    | some key =>
      obtain ⟨probe, keyed, mapped⟩ := Option.bind_eq_some_iff.mp found
      rw [byKey_lookup] at mapped
      split at mapped
      · rename_i known
        cases mapped
        dsimp only
        cases held : table.records.lookup key with
        | none => rfl
        | some old => exact absurd ⟨named, keyed, known, held⟩ (idle key old)
      · cases mapped

private theorem rename_eq {key : Nat} {old : EquateRecord space} (finds : Finds before table r key old) :
    rename validName before table r =
      match (table.erase key).createEquate validName r.name old.value with
      | none => (table.erase key, false)
      | some (newKey, created) =>
        (old.refs.list.foldl (fun current ref => (current.addReference newKey ref).getD current) created, true) := by
  obtain ⟨named, keyed, known, held⟩ := finds
  unfold rename renameEquate
  rw [if_neg named, keyed, Option.bind_some, byKey_lookup, if_pos known]
  dsimp only
  rw [held]
  dsimp only
  rewrite [removeEquate_of_lookup held]
  rfl

private theorem getEquate_erase {key : Nat} {name : String} :
    (table.erase key).getEquate name = none ↔ NameFree table key name := by
  rw [EquateTable.getEquate_eq_none]
  constructor
  · intro unused other found apart held
    refine unused other found ?_
    rw [EquateTable.erase, Table.lookup_erase_eq, if_neg apart]
    exact held
  · intro free other found held
    obtain ⟨apart, held⟩ := Table.of_lookup_erase held
    exact free other found apart held

theorem size_erase {key : Nat} {old : EquateRecord space} (held : table.records.lookup key = some old) :
    (table.erase key).size + 1 = table.size :=
  Table.length_items_erase (AList.lookup_isSome.mp (by simp [held]))

/-- A name that is taken or not valid: the equate is gone and nothing is counted. -/
theorem rename_lost {key : Nat} {old : EquateRecord space} (finds : Finds before table r key old)
    (taken : ¬(validName r.name = true ∧ NameFree table key r.name)) :
    rename validName before table r = (table.erase key, false) := by
  have throws : (table.erase key).createEquate validName r.name old.value = none := by
    unfold EquateTable.createEquate
    split
    · rename_i free
      rw [if_neg]
      exact fun valid => taken ⟨valid, getEquate_erase.mp free⟩
    · rfl
  rw [rename_eq finds, throws]

/-- A free and valid name: the equate is made again and counted. -/
theorem rename_made {key : Nat} {old : EquateRecord space} (finds : Finds before table r key old)
    (valid : validName r.name = true) (free : NameFree table key r.name) :
    (rename validName before table r).2 = true ∧
      Recreated table (rename validName before table r).1 key old r.name := by
  have held := finds.2.2.2
  have unused := getEquate_erase.mpr free
  have creates : (table.erase key).createEquate validName r.name old.value =
      some (table.nextKey, (table.erase key).insert { name := r.name, value := old.value } unused) := by
    rw [EquateTable.createEquate, dif_pos unused, if_pos valid]
    rfl
  rw [rename_eq finds, creates]
  refine ⟨rfl, ?_⟩
  have insertedLookup (probe : Nat) :
      ((table.erase key).insert { name := r.name, value := old.value } unused).records.lookup probe =
        if probe = table.nextKey then some { name := r.name, value := old.value }
        else if probe = key then none else table.records.lookup probe := by
    rw [EquateTable.insert, Table.lookup_set, EquateTable.erase, Table.lookup_erase_eq]
  have attached := attach_refs old.refs.list
    (show ((table.erase key).insert { name := r.name, value := old.value } unused).records.lookup table.nextKey =
      some { name := r.name, value := old.value } by rw [insertedLookup, if_pos rfl])
  refine ⟨attached.nextKey, ?_, fun probe => ?_⟩
  · have fresh : table.nextKey ∉ (table.erase key).records := by
      intro held
      obtain ⟨record, found⟩ := Option.isSome_iff_exists.mp (AList.lookup_isSome.mpr held)
      exact absurd ((table.erase key).fresh table.nextKey record found) (Nat.lt_irrefl _)
    rw [attached.size, EquateTable.size, EquateTable.insert]
    dsimp only
    rw [show (table.erase key).nextKey = table.nextKey from rfl, Table.length_items_set, if_neg fresh]
    exact size_erase held
  · rw [attached.lookup, insertedLookup]
    split
    · exact congrArg (fun refs => some (EquateRecord.mk r.name old.value refs)) (Roster.ofList_list old.refs)
    · rfl

end Rename

/-! ## A run of renames -/

section Run
variable (validName : String → Bool) (before : EquateTable space)

/-- The equates after the renames of a check-in. -/
def afterRenames (renames : List EquateRename) : EquatesApplied space :=
  (applyEquateRenames validName before (renames.map CheckinJson.equateRenameEntry)).getD { table := before }

/-- The count goes up with a rename that ends where the new equate has its references. -/
def countRename (applied : EquatesApplied space) (r : EquateRename) : EquatesApplied space where
  table := (rename validName before applied.table r).1
  count := applied.count + if (rename validName before applied.table r).2 then 1 else 0

/-- The entries a check-in sends never throw. -/
theorem applyEquateRenames_entries (renames : List EquateRename) :
    applyEquateRenames validName before (renames.map CheckinJson.equateRenameEntry) =
      some (renames.foldl (countRename validName before) { table := before }) := by
  have entry (applied : EquatesApplied space) (r : EquateRename) :
      applyEquateRename validName before.byKey applied (CheckinJson.equateRenameEntry r) =
        some (countRename validName before applied r) := by
    have id : (int64Json r.id).getAsLong = some r.id := Json.getAsLong_toInt r.id
    unfold applyEquateRename CheckinJson.equateRenameEntry
    rw [if_neg (by simp [Json.isObject]), show Json.get? (.obj _) "id" = some (int64Json r.id) from rfl]
    dsimp only
    rw [id]
    rfl
  have run (applied : EquatesApplied space) :
      (renames.map CheckinJson.equateRenameEntry).foldlM (applyEquateRename validName before.byKey) applied =
        some (renames.foldl (countRename validName before) applied) := by
    induction renames generalizing applied with
    | nil => rfl
    | cons r rest ih =>
      rw [List.map_cons, List.foldlM_cons, entry]
      exact ih (countRename validName before applied r)
  exact run { table := before }

variable {validName before} {done later renames : List EquateRename} {r : EquateRename}

theorem afterRenames_nil : afterRenames validName before [] = { table := before } := rfl

theorem afterRenames_append :
    afterRenames validName before (done ++ [r]) =
      countRename validName before (afterRenames validName before done) r := by
  rw [afterRenames, afterRenames, applyEquateRenames_entries, applyEquateRenames_entries, List.foldl_append]
  rfl

/-- Some rename of the list asks for another name of the equate. -/
def Attempted (renames : List EquateRename) (key : Nat) : Prop :=
  ∃ r ∈ renames, keyOf r.id = some key ∧ r.name ≠ ""

theorem attempted_append {key : Nat} :
    Attempted (done ++ [r]) key ↔ Attempted done key ∨ (keyOf r.id = some key ∧ r.name ≠ "") := by
  simp only [Attempted, List.mem_append, List.mem_singleton, or_and_right, exists_or, exists_eq_left]

/-- The entry is the first of the list to ask for another name of an equate that is
there. -/
structure Turn (before : EquateTable space) (renames done : List EquateRename) (r : EquateRename) (key : Nat)
    (old : EquateRecord space) : Prop where
  split : ∃ later, renames = done ++ r :: later
  named : r.name ≠ ""
  keyed : keyOf r.id = some key
  held : before.records.lookup key = some old
  first : ¬Attempted done key

theorem Turn.append {key : Nat} {old : EquateRecord space} (turn : Turn before renames done r key old)
    (later : List EquateRename) : Turn before (renames ++ later) done r key old := by
  obtain ⟨rest, split⟩ := turn.split
  exact { turn with split := ⟨rest ++ later, by rw [split, List.append_assoc, List.cons_append]⟩ }

/-- The name is valid and no other equate has it when the turn comes. -/
def Makes (validName : String → Bool) (before : EquateTable space) (done : List EquateRename) (r : EquateRename)
    (key : Nat) : Prop :=
  validName r.name = true ∧ NameFree (afterRenames validName before done).table key r.name

/-- The table in the middle of a run: an equate nobody asked to rename is as it was,
one that was is gone from its key, and whatever is new was made in its turn. -/
structure Along (validName : String → Bool) (before : EquateTable space) (done : List EquateRename)
    (table : EquateTable space) : Prop where
  nextKey : before.nextKey ≤ table.nextKey
  kept : ∀ key old, before.records.lookup key = some old → ¬Attempted done key → table.records.lookup key = some old
  gone : ∀ key, key ∈ before.records → Attempted done key → table.records.lookup key = none
  origin : ∀ key record, table.records.lookup key = some record →
    (before.records.lookup key = some record ∧ ¬Attempted done key) ∨
    (before.nextKey ≤ key ∧ ∃ earlier r source old, Turn before done earlier r source old ∧
      Makes validName before earlier r source ∧ record = ⟨r.name, old.value, old.refs⟩)
  made : ∀ earlier r source old, Turn before done earlier r source old → Makes validName before earlier r source →
    ∃ key, before.nextKey ≤ key ∧ table.records.lookup key = some ⟨r.name, old.value, old.refs⟩

theorem lookup_lt {key : Nat} (held : key ∈ before.records) : key < before.nextKey := by
  obtain ⟨record, found⟩ := Option.isSome_iff_exists.mp (AList.lookup_isSome.mpr held)
  exact before.fresh key record found

theorem Along.start : Along validName before [] before where
  nextKey := le_rfl
  kept := fun _ _ held _ => held
  gone := by
    rintro key _ ⟨r, member, _⟩
    cases member
  origin := by
    intro key record held
    refine .inl ⟨held, ?_⟩
    rintro ⟨r, member, _⟩
    cases member
  made := by
    intro earlier r source old turn
    obtain ⟨later, split⟩ := turn.split
    exact absurd split.symm (by simp)

/-- A turn of a longer list is an earlier one or that of the last entry. -/
theorem Turn.of_append {earlier : List EquateRename} {s : EquateRename} {key : Nat} {old : EquateRecord space}
    (turn : Turn before (done ++ [r]) earlier s key old) :
    Turn before done earlier s key old ∨ (earlier = done ∧ s = r) := by
  obtain ⟨later, split⟩ := turn.split
  rcases List.eq_nil_or_concat later with rfl | ⟨rest, last, rfl⟩
  · obtain ⟨same, entry⟩ := List.append_inj' split rfl
    exact .inr ⟨same.symm, (List.cons.inj entry).1.symm⟩
  · have regrouped : done ++ [r] = (earlier ++ s :: rest) ++ [last] := by
      rw [split, List.concat_eq_append, List.append_assoc, List.cons_append]
    exact .inl { turn with split := ⟨rest, (List.append_inj' regrouped rfl).1⟩ }

/-- A rename works on the equate of its id unless that was renamed before. -/
theorem Along.finds_iff (along : Along validName before done table) {key : Nat} {old : EquateRecord space} :
    Finds before table r key old ↔ Turn before (done ++ [r]) done r key old := by
  constructor
  · rintro ⟨named, keyed, known, held⟩
    have untried : ¬Attempted done key := by
      intro tried
      rw [along.gone key known tried] at held
      cases held
    obtain ⟨record, found⟩ := Option.isSome_iff_exists.mp (AList.lookup_isSome.mpr known)
    rw [along.kept key record found untried, Option.some.injEq] at held
    exact ⟨⟨[], rfl⟩, named, keyed, held ▸ found, untried⟩
  · intro turn
    exact ⟨turn.named, turn.keyed, AList.lookup_isSome.mp (by simp [turn.held]),
      along.kept key old turn.held turn.first⟩

/-- The equate is taken out whether or not the new one can be made. -/
private theorem Along.taken_out (along : Along validName before done table) {key : Nat} {old : EquateRecord space}
    (turn : Turn before (done ++ [r]) done r key old) {after : EquateTable space}
    (nextKey : table.nextKey ≤ after.nextKey)
    (lookup : ∀ probe, probe < table.nextKey →
      after.records.lookup probe = if probe = key then none else table.records.lookup probe)
    (new : ∀ probe record, table.nextKey ≤ probe → after.records.lookup probe = some record →
      Makes validName before done r key ∧ record = ⟨r.name, old.value, old.refs⟩)
    (made : Makes validName before done r key →
      after.records.lookup table.nextKey = some ⟨r.name, old.value, old.refs⟩) :
    Along validName before (done ++ [r]) after := by
  have known : key ∈ before.records := AList.lookup_isSome.mp (by simp [turn.held])
  have bound {probe : Nat} (known : probe ∈ before.records) : probe < table.nextKey :=
    lt_of_lt_of_le (lookup_lt known) along.nextKey
  refine ⟨along.nextKey.trans nextKey, ?_, ?_, ?_, ?_⟩
  · intro probe record held unattempted
    rw [attempted_append, not_or] at unattempted
    have apart : probe ≠ key := by
      rintro rfl
      exact unattempted.2 ⟨turn.keyed, turn.named⟩
    rw [lookup probe (bound (AList.lookup_isSome.mp (by simp [held]))), if_neg apart]
    exact along.kept probe record held unattempted.1
  · intro probe listed attempted
    rw [lookup probe (bound listed)]
    split
    · rfl
    · rename_i apart
      rcases attempted_append.mp attempted with tried | ⟨here, _⟩
      · exact along.gone probe listed tried
      · rw [turn.keyed, Option.some.injEq] at here
        exact absurd here.symm apart
  · intro probe record held
    by_cases fresh : table.nextKey ≤ probe
    · obtain ⟨makes, same⟩ := new probe record fresh held
      exact .inr ⟨along.nextKey.trans fresh, done, r, key, old, turn, makes, same⟩
    · rw [lookup probe (by omega)] at held
      split at held
      · cases held
      · rename_i apart
        rcases along.origin probe record held with ⟨original, unattempted⟩ | ⟨later, earlier, s, source, was, rest⟩
        · refine .inl ⟨original, ?_⟩
          rw [attempted_append, not_or]
          refine ⟨unattempted, fun both => ?_⟩
          rw [turn.keyed, Option.some.injEq] at both
          exact apart both.1.symm
        · exact .inr ⟨later, earlier, s, source, was, rest.1.append [r], rest.2⟩
  · intro earlier s source was other makes
    rcases other.of_append with before | ⟨rfl, rfl⟩
    · obtain ⟨probe, later, held⟩ := along.made earlier s source was before makes
      refine ⟨probe, later, ?_⟩
      have apart : probe ≠ key := by
        rintro rfl
        exact absurd (lookup_lt known) (by omega)
      rw [lookup probe (table.fresh probe _ held), if_neg apart]
      exact held
    · have here : source = key := by
        have keyed := other.keyed
        rw [turn.keyed, Option.some.injEq] at keyed
        exact keyed.symm
      subst here
      have same : was = old := Option.some.inj (other.held.symm.trans turn.held)
      subst same
      exact ⟨table.nextKey, along.nextKey, made makes⟩

/-- One more rename. -/
private theorem Along.step (along : Along validName before done (afterRenames validName before done).table) :
    Along validName before (done ++ [r]) (rename validName before (afterRenames validName before done).table r).1 := by
  generalize reached : (afterRenames validName before done).table = table at along
  by_cases finds : ∃ key old, Finds before table r key old
  · obtain ⟨key, old, finds⟩ := finds
    have turn := along.finds_iff.mp finds
    by_cases free : Makes validName before done r key
    · have makes := free
      rw [Makes, reached] at makes
      obtain ⟨_, made⟩ := rename_made finds makes.1 makes.2
      refine along.taken_out turn (by rw [made.nextKey]; omega) ?_ ?_ ?_
      · intro probe bound
        rw [made.lookup, if_neg (by omega)]
      · intro probe record fresh held
        rw [made.lookup] at held
        split at held
        · exact ⟨free, (Option.some.inj held).symm⟩
        · split at held
          · cases held
          · have bound := table.fresh probe record held
            omega
      · intro _
        rw [made.lookup, if_pos rfl]
    · have lost := free
      rw [Makes, reached] at lost
      rw [rename_lost finds lost]
      refine along.taken_out turn le_rfl (fun probe _ => Table.lookup_erase_eq ..) ?_ fun makes => absurd makes free
      intro probe record fresh held
      have bound := (table.erase key).fresh probe record held
      exact absurd bound (Nat.not_lt.mpr fresh)
  · have idle : ∀ key old, ¬Finds before table r key old := fun key old found => finds ⟨key, old, found⟩
    rw [rename_idle idle]
    -- Nothing was there to rename, so whoever asked again had been renamed before.
    have same {key : Nat} (known : key ∈ before.records) : Attempted (done ++ [r]) key ↔ Attempted done key := by
      refine attempted_append.trans ⟨?_, .inl⟩
      rintro (tried | ⟨keyed, named⟩)
      · exact tried
      · by_contra untried
        obtain ⟨old, found⟩ := Option.isSome_iff_exists.mp (AList.lookup_isSome.mpr known)
        exact idle key old (along.finds_iff.mpr ⟨⟨[], rfl⟩, named, keyed, found, untried⟩)
    refine ⟨along.nextKey, ?_, ?_, ?_, ?_⟩
    · intro key old held unattempted
      exact along.kept key old held (mt (same (AList.lookup_isSome.mp (by simp [held]))).mpr unattempted)
    · intro key known attempted
      exact along.gone key known ((same known).mp attempted)
    · intro key record held
      rcases along.origin key record held with ⟨original, unattempted⟩ | ⟨later, earlier, s, source, was, rest⟩
      · exact .inl ⟨original, mt (same (AList.lookup_isSome.mp (by simp [original]))).mp unattempted⟩
      · exact .inr ⟨later, earlier, s, source, was, rest.1.append [r], rest.2⟩
    · intro earlier s source was turn makes
      rcases turn.of_append with before | ⟨rfl, rfl⟩
      · exact along.made earlier s source was before makes
      · exact absurd (along.finds_iff.mpr turn) (idle source was)

/-- What holds after every list of renames. -/
theorem along_afterRenames (done : List EquateRename) :
    Along validName before done (afterRenames validName before done).table := by
  induction done using List.reverseRecOn with
  | nil => exact Along.start
  | append_singleton done r ih =>
    rw [afterRenames_append]
    exact ih.step

/-! ## A rename that is not counted -/

/-- A rename is counted exactly when its turn comes and the name can be had. -/
theorem not_counted_iff :
    (afterRenames validName before (done ++ [r])).count = (afterRenames validName before done).count ↔
      ∀ key old, Turn before (done ++ [r]) done r key old → ¬Makes validName before done r key := by
  have along := @along_afterRenames _ validName before done
  rw [afterRenames_append, countRename]
  dsimp only
  constructor
  · intro same key old turn makes
    obtain ⟨counted, _⟩ := rename_made (along.finds_iff.mpr turn) makes.1 makes.2
    rw [counted] at same
    simp at same
  · intro fails
    by_cases finds : ∃ key old, Finds before (afterRenames validName before done).table r key old
    · obtain ⟨key, old, finds⟩ := finds
      rw [rename_lost finds (fails key old (along.finds_iff.mp finds))]
      rfl
    · rw [rename_idle fun key old found => finds ⟨key, old, found⟩]
      rfl

/-- The number of equates stays the same unless a turn makes nothing. -/
theorem size_step_iff :
    (afterRenames validName before done).table.size ≤ (afterRenames validName before (done ++ [r])).table.size ↔
      ∀ key old, Turn before (done ++ [r]) done r key old → Makes validName before done r key := by
  have along := @along_afterRenames _ validName before done
  rw [afterRenames_append, countRename]
  dsimp only
  constructor
  · intro grows key old turn
    by_contra fails
    have finds := along.finds_iff.mpr turn
    have smaller := size_erase finds.2.2.2
    rw [rename_lost finds fails] at grows
    dsimp only at grows
    omega
  · intro makes
    by_cases finds : ∃ key old, Finds before (afterRenames validName before done).table r key old
    · obtain ⟨key, old, finds⟩ := finds
      have made := makes key old (along.finds_iff.mp finds)
      exact (rename_made finds made.1 made.2).2.size.ge
    · rw [rename_idle fun key old found => finds ⟨key, old, found⟩]

/-- An equate whose name the rename wants was itself renamed by an entry before. -/
def Vacated (before : EquateTable space) (done : List EquateRename) (key : Nat) (name : String) : Prop :=
  ∀ other found, before.records.lookup other = some found → found.name = name → other = key ∨ Attempted done other

theorem vacated_of_nameFree {key : Nat} {name : String}
    (free : NameFree (afterRenames validName before done).table key name) : Vacated before done key name := by
  intro other found held named
  by_contra stays
  rw [not_or] at stays
  exact free other found stays.1 ((along_afterRenames done).kept other found held stays.2) named

theorem nameFree_of_vacated {key : Nat} {name : String} (vacated : Vacated before done key name)
    (unclaimed : ∀ earlier s source old, Turn before done earlier s source old → s.name ≠ name) :
    NameFree (afterRenames validName before done).table key name := by
  intro other found apart held named
  rcases (along_afterRenames done).origin other found held with ⟨original, untried⟩ |
    ⟨_, earlier, s, source, old, turn, _, rfl⟩
  · rcases vacated other found original named with same | tried
    · exact apart same
    · exact untried tried
  · exact unclaimed earlier s source old turn named

/-- A rename that is not counted leaves its equate as it was, and no rename makes
the equates fewer. -/
structure KeepsEquates (validName : String → Bool) (before : EquateTable space) (renames : List EquateRename) :
    Prop where
  intact : ∀ done r later, renames = done ++ r :: later →
    (afterRenames validName before (done ++ [r])).count = (afterRenames validName before done).count →
    ∀ key old, keyOf r.id = some key → before.records.lookup key = some old →
      (afterRenames validName before renames).table.records.lookup key = some old
  grows : ∀ done r later, renames = done ++ r :: later →
    (afterRenames validName before done).table.size ≤ (afterRenames validName before (done ++ [r])).table.size

/-- Each rename of an equate is the only entry with its id and asks for a valid name
that is free by then: who had the name was renamed before, and no entry before asked
for it. -/
def EachNameFree (validName : String → Bool) (before : EquateTable space) (renames : List EquateRename) : Prop :=
  ∀ done r later key, renames = done ++ r :: later → r.name ≠ "" → keyOf r.id = some key → key ∈ before.records →
    (∀ s ∈ done ++ later, keyOf s.id ≠ some key) ∧ validName r.name = true ∧ Vacated before done key r.name ∧
      ∀ s ∈ done, ∀ source ∈ before.records, keyOf s.id = some source → s.name ≠ r.name

private theorem KeepsEquates.only_turn (keeps : KeepsEquates validName before renames) {key : Nat}
    (split : renames = done ++ r :: later) (keyed : keyOf r.id = some key) (known : key ∈ before.records)
    (attempted : Attempted renames key) : r.name ≠ "" ∧ ¬Attempted done key := by
  obtain ⟨old, held⟩ := Option.isSome_iff_exists.mp (AList.lookup_isSome.mpr known)
  have counted : (afterRenames validName before (done ++ [r])).count ≠ (afterRenames validName before done).count := by
    intro same
    have intact := keeps.intact done r later split same key old keyed held
    rw [(along_afterRenames renames).gone key known attempted] at intact
    cases intact
  rw [Ne, not_counted_iff] at counted
  push Not at counted
  obtain ⟨_, _, turn, _⟩ := counted
  have same : some _ = some key := turn.keyed.symm.trans keyed
  rw [Option.some.injEq] at same
  exact ⟨turn.named, same ▸ turn.first⟩

private theorem KeepsEquates.each (keeps : KeepsEquates validName before renames) :
    EachNameFree validName before renames := by
  intro done r later key split named keyed known
  have tried : Attempted renames key := ⟨r, by simp [split], keyed, named⟩
  obtain ⟨_, first⟩ := keeps.only_turn split keyed known tried
  obtain ⟨old, held⟩ := Option.isSome_iff_exists.mp (AList.lookup_isSome.mpr known)
  have makes := size_step_iff.mp (keeps.grows done r later split) key old ⟨⟨[], rfl⟩, named, keyed, held, first⟩
  refine ⟨?_, makes.1, vacated_of_nameFree makes.2, ?_⟩
  · intro s member same
    rcases List.mem_append.mp member with earlier | after
    · obtain ⟨front, back, rfl⟩ := List.append_of_mem earlier
      have regrouped : renames = front ++ s :: (back ++ r :: later) := by rw [split]; simp
      obtain ⟨sNamed, _⟩ := keeps.only_turn regrouped same known tried
      exact first ⟨s, earlier, same, sNamed⟩
    · obtain ⟨front, back, rfl⟩ := List.append_of_mem after
      have regrouped : renames = (done ++ r :: front) ++ s :: back := by rw [split]; simp
      obtain ⟨_, sFirst⟩ := keeps.only_turn regrouped same known tried
      exact sFirst ⟨r, by simp, keyed, named⟩
  · intro s member source sKnown sKeyed same
    -- The earlier entry made an equate of that name, which is still there.
    obtain ⟨front, back, rfl⟩ := List.append_of_mem member
    have sNamed : s.name ≠ "" := same ▸ named
    have regrouped : renames = front ++ s :: (back ++ r :: later) := by rw [split]; simp
    have sTried : Attempted renames source := ⟨s, by simp [regrouped], sKeyed, sNamed⟩
    obtain ⟨_, sFirst⟩ := keeps.only_turn regrouped sKeyed sKnown sTried
    obtain ⟨was, sHeld⟩ := Option.isSome_iff_exists.mp (AList.lookup_isSome.mpr sKnown)
    have sMakes := size_step_iff.mp (keeps.grows front s _ regrouped) source was
      ⟨⟨[], rfl⟩, sNamed, sKeyed, sHeld, sFirst⟩
    obtain ⟨probe, new, made⟩ := (along_afterRenames (front ++ s :: back)).made front s source was
      ⟨⟨back, rfl⟩, sNamed, sKeyed, sHeld, sFirst⟩ sMakes
    have apart : probe ≠ key := by
      have bound := lookup_lt known
      omega
    exact makes.2 probe _ apart made same

private theorem EachNameFree.keeps (each : EachNameFree validName before renames) :
    KeepsEquates validName before renames := by
  have makes {done later : List EquateRename} {r : EquateRename} (split : renames = done ++ r :: later) (key : Nat)
      (old : EquateRecord space) (turn : Turn before (done ++ [r]) done r key old) :
      Makes validName before done r key := by
    have known : key ∈ before.records := AList.lookup_isSome.mp (by simp [turn.held])
    obtain ⟨_, valid, vacated, unclaimed⟩ := each done r later key split turn.named turn.keyed known
    refine ⟨valid, nameFree_of_vacated vacated ?_⟩
    intro earlier s source was sTurn
    obtain ⟨rest, sSplit⟩ := sTurn.split
    exact unclaimed s (by simp [sSplit]) source (AList.lookup_isSome.mp (by simp [sTurn.held])) sTurn.keyed
  refine ⟨?_, fun done r later split => size_step_iff.mpr (makes split)⟩
  intro done r later split uncounted key old keyed held
  have known : key ∈ before.records := AList.lookup_isSome.mp (by simp [held])
  refine (along_afterRenames renames).kept key old held ?_
  rintro ⟨s, member, sKeyed, sNamed⟩
  obtain ⟨front, back, sSplit⟩ := List.append_of_mem member
  obtain ⟨alone, _⟩ := each front s back key sSplit sNamed sKeyed known
  have here : r ∈ front ++ s :: back := by
    rw [← sSplit, split]
    simp
  rcases List.mem_append.mp here with earlier | rest
  · exact alone r (List.mem_append_left _ earlier) keyed
  · rcases List.mem_cons.mp rest with rfl | after
    · have first : ¬Attempted done key := by
        rintro ⟨t, tMember, tKeyed, _⟩
        exact (each done r later key split sNamed keyed known).1 t (List.mem_append_left _ tMember) tKeyed
      have turn : Turn before (done ++ [r]) done r key old := ⟨⟨[], rfl⟩, sNamed, keyed, held, first⟩
      exact not_counted_iff.mp uncounted key old turn (makes split key old turn)
    · exact alone r (List.mem_append_right _ after) keyed

/-- A failed rename leaves its equate intact exactly for the lists in which no
rename can fail. -/
theorem renames_keep_equates_iff (validName : String → Bool) (before : EquateTable space)
    (renames : List EquateRename) :
    KeepsEquates validName before renames ↔ EachNameFree validName before renames :=
  ⟨KeepsEquates.each, EachNameFree.keeps⟩

/-- Two equates, one of them with a reference. -/
def twoFlags : EquateTable {} :=
  (EquateTable.insert ∅
    { name := "FLAG_A", value := 1, refs := Roster.ofList [(AddressSpace.flat 4096, 0)] } rfl).insert
    { name := "FLAG_B", value := 2 } (by decide +kernel)

theorem rename_to_used_name_loses_equate :
    twoFlags.size = 2 ∧ (afterRenames (· ≠ "") twoFlags [⟨0, "FLAG_B"⟩]).count = 0 ∧
      (afterRenames (· ≠ "") twoFlags [⟨0, "FLAG_B"⟩]).table.size = 1 ∧
      ¬KeepsEquates (· ≠ "") twoFlags [⟨0, "FLAG_B"⟩] := by
  have shrinks : (afterRenames (· ≠ "") twoFlags [⟨0, "FLAG_B"⟩]).table.size = 1 := by decide +kernel
  refine ⟨by decide +kernel, by decide +kernel, shrinks, fun keeps => ?_⟩
  have grows := keeps.grows [] ⟨0, "FLAG_B"⟩ [] rfl
  rw [List.nil_append, shrinks, afterRenames_nil] at grows
  exact absurd grows (by decide +kernel)

end Run

end GhidraBridge.EquateRenames
