import Mathlib.Data.List.AList

/-! Hash tables and hash sets as their owner sees them: a table answers lookups
and can be walked once per key, a roster answers membership and can be walked
once per element. The walk order of either is whatever order its list has, so
a statement about every table or roster is a statement about every walk order. -/
namespace Lib

/-- A finite map from keys to values, walked in the order of its entries. -/
abbrev Table (K : Type u) (V : Type v) := AList fun _ : K => V

namespace Table
variable {K : Type u} {V : Type v} {A : Type w}

/-- The key-value pairs in walk order. -/
def items (table : Table K V) : List (K × V) := table.entries.map fun entry => (entry.1, entry.2)

/-- No key is walked twice. -/
theorem items_pairwise (table : Table K V) : table.items.Pairwise fun first second => first.1 ≠ second.1 := by
  have keys := List.pairwise_map.mp table.nodupKeys
  exact List.pairwise_map.mpr keys

theorem length_items (table : Table K V) : table.items.length = table.keys.length := by
  rw [items, List.length_map, AList.keys, List.keys, List.length_map]

/-- The first key of a kind is the key of the first such entry. -/
theorem find?_keys (table : Table K V) (kind : K → Bool) :
    table.keys.find? kind = (table.items.find? fun entry => kind entry.1).map Prod.fst := by
  have walked : table.keys = table.items.map Prod.fst := by
    rw [items, List.map_map]
    rfl
  rw [walked, List.find?_map]
  rfl

section
variable [DecidableEq K]

theorem mem_items {table : Table K V} {key : K} {value : V} :
    (key, value) ∈ table.items ↔ table.lookup key = some value := by
  rw [← Option.mem_def, AList.mem_lookup_iff, items, List.mem_map]
  constructor
  · rintro ⟨⟨found, held⟩, member, same⟩
    cases same
    exact member
  · exact fun member => ⟨⟨key, value⟩, member, rfl⟩

/-- A table with an entry is not empty. -/
theorem filled_of_lookup {table : Table K V} {key : K} {value : V} (held : table.lookup key = some value) :
    table.entries.isEmpty = false := by
  cases entries : table.entries with
  | nil => simp [AList.lookup, entries] at held
  | cons entry rest => rfl

theorem eq_empty_of_lookup {table : Table K V} (nothing : ∀ key, table.lookup key = none) : table = ∅ := by
  apply AList.ext
  refine List.eq_nil_iff_forall_not_mem.mpr fun entry there => ?_
  have found := AList.mem_lookup_iff.mpr there
  rw [nothing] at found
  cases found

private theorem dlookup_kreplace (key probe : K) (value : V) (entries : List (Sigma fun _ : K => V)) :
    (entries.kreplace key value).dlookup probe =
      if probe = key ∧ key ∈ entries.keys then some value else entries.dlookup probe := by
  induction entries with
  | nil => simp [List.kreplace]
  | cons entry rest ih =>
    obtain ⟨held, old⟩ := entry
    by_cases here : key = held
    · subst here
      by_cases same : probe = key
      · subst same
        simp [List.kreplace]
      · have skip (new : V) : List.dlookup probe (⟨key, new⟩ :: rest) = List.dlookup probe rest :=
          List.dlookup_cons_ne (β := fun _ : K => V) rest ⟨key, new⟩ same
        simp [List.kreplace, same, skip]
    · have step : List.kreplace key value (⟨held, old⟩ :: rest) = ⟨held, old⟩ :: rest.kreplace key value := by
        simp [List.kreplace, here]
      rw [step]
      by_cases same : probe = held
      · subst same
        simp [Ne.symm here]
      · have skip (tail : List (Sigma fun _ : K => V)) :
            List.dlookup probe (⟨held, old⟩ :: tail) = List.dlookup probe tail :=
          List.dlookup_cons_ne (β := fun _ : K => V) tail ⟨held, old⟩ same
        simp [skip, ih, here]

/-- `table[key] = value`: an entry that is there keeps its place in the walk. -/
def set (table : Table K V) (key : K) (value : V) : Table K V :=
  if key ∈ table then table.replace key value else table.insert key value

/-- One lookup rule for a written table, covering the written key and the rest. -/
theorem lookup_set (table : Table K V) (key probe : K) (value : V) :
    (table.set key value).lookup probe = if probe = key then some value else table.lookup probe := by
  unfold set
  split
  · rename_i held
    have held : key ∈ table.entries.keys := held
    have rule := dlookup_kreplace key probe value table.entries
    simp only [held, and_true] at rule
    exact rule
  · by_cases same : probe = key
    · subst same
      simp
    · simp [same, AList.lookup_insert_ne same]

@[simp] theorem mem_set {table : Table K V} {key probe : K} {value : V} :
    probe ∈ table.set key value ↔ probe = key ∨ probe ∈ table := by
  rw [← AList.lookup_isSome, lookup_set, ← AList.lookup_isSome]
  by_cases same : probe = key <;> simp [same]

theorem lookup_erase_eq (table : Table K V) (key probe : K) :
    (table.erase key).lookup probe = if probe = key then none else table.lookup probe := by
  by_cases same : probe = key
  · subst same
    simp
  · simp [same, AList.lookup_erase_ne same]

/-- What is found after a key was taken out was there before, under another key. -/
theorem of_lookup_erase {table : Table K V} {key probe : K} {value : V}
    (held : (table.erase key).lookup probe = some value) : probe ≠ key ∧ table.lookup probe = some value := by
  rw [lookup_erase_eq] at held
  split at held
  · cases held
  · rename_i elsewhere
    exact ⟨elsewhere, held⟩

/-- A key that is not there cannot be taken out. -/
theorem erase_of_not_mem {table : Table K V} {key : K} (missing : key ∉ table) : table.erase key = table :=
  AList.ext (List.kerase_of_notMem_keys missing)

private theorem kerase_kreplace (key : K) (value : V) (entries : List (Sigma fun _ : K => V)) :
    (entries.kreplace key value).kerase key = entries.kerase key := by
  induction entries with
  | nil => rfl
  | cons entry rest ih =>
    obtain ⟨held, old⟩ := entry
    by_cases here : key = held
    · subst here
      simp [List.kreplace]
    · have step : List.kreplace key value (⟨held, old⟩ :: rest) = ⟨held, old⟩ :: rest.kreplace key value := by
        simp [List.kreplace, here]
      rw [step, List.kerase_cons_ne here, List.kerase_cons_ne here, ih]

/-- What was written to a key is gone when the key is taken out. -/
theorem erase_set (table : Table K V) (key : K) (value : V) : (table.set key value).erase key = table.erase key := by
  unfold set
  split
  · exact AList.ext (kerase_kreplace key value table.entries)
  · rename_i missing
    rw [erase_of_not_mem missing]
    refine AList.ext ?_
    show List.kerase key (table.insert key value).entries = table.entries
    rw [AList.entries_insert_of_notMem missing]
    exact List.kerase_cons_eq rfl

/-- Taking out a key takes one entry out of the walk. -/
theorem items_perm_cons_erase {table : Table K V} {key : K} {value : V} (held : table.lookup key = some value) :
    table.items.Perm ((key, value) :: items (table.erase key)) := by
  have member : key ∈ table.entries.keys := AList.lookup_isSome.mp (by rw [held, Option.isSome_some])
  obtain ⟨old, before, after, _, split, erased⟩ := List.exists_of_kerase member
  have found : table.lookup key = some old := by
    refine AList.mem_lookup_iff.mpr ?_
    rw [split]
    exact List.mem_append_right _ List.mem_cons_self
  rw [held, Option.some.injEq] at found
  subst found
  have rest : items (table.erase key) = (before ++ after).map fun entry => (entry.1, entry.2) :=
    congrArg (List.map _) erased
  rw [rest, items, split, List.map_append, List.map_cons, List.map_append]
  exact List.perm_middle

/-- A walk that keeps the entry of one key only. -/
theorem filter_items_eq_singleton {table : Table K V} {key : K} {value : V} {keeps : K × V → Bool}
    (held : table.lookup key = some value) (kept : keeps (key, value) = true)
    (others : ∀ other value, table.lookup other = some value → keeps (other, value) = true → other = key) :
    table.items.filter keeps = [(key, value)] := by
  have rest : (items (table.erase key)).filter keeps = [] := by
    refine List.filter_eq_nil_iff.mpr ?_
    rintro ⟨other, value⟩ listed keepsOther
    have found := mem_items.mp listed
    by_cases same : other = key
    · subst same
      rw [AList.lookup_erase] at found
      cases found
    · rw [AList.lookup_erase_ne same] at found
      exact same (others other value found keepsOther)
  have walked := (items_perm_cons_erase held).filter keeps
  rw [List.filter_cons, if_pos kept, rest] at walked
  exact List.perm_singleton.mp walked

/-- A written table walks the written entry and the entries of the other keys. -/
theorem items_set_perm (table : Table K V) (key : K) (value : V) :
    (table.set key value).items.Perm ((key, value) :: items (table.erase key)) := by
  have written : (table.set key value).lookup key = some value := by rw [lookup_set, if_pos rfl]
  have walked := items_perm_cons_erase written
  rw [erase_set] at walked
  exact walked

theorem items_erase_sublist (table : Table K V) (key : K) : (items (table.erase key)).Sublist table.items :=
  (List.kerase_sublist key table.entries).map _

theorem length_items_set (table : Table K V) (key : K) (value : V) :
    (table.set key value).items.length = table.items.length + if key ∈ table then 0 else 1 := by
  rw [length_items, length_items, set]
  split
  · rw [AList.keys_replace, Nat.add_zero]
  · rename_i missing
    rw [AList.keys_insert, List.length_cons, List.erase_of_not_mem fun held => missing (AList.mem_keys.mpr held)]

theorem length_items_erase {table : Table K V} {key : K} (held : key ∈ table) :
    (items (table.erase key)).length + 1 = table.items.length := by
  have member := AList.mem_keys.mp held
  have positive := List.length_pos_of_mem member
  rw [length_items, length_items, AList.keys_erase, List.length_erase_of_mem member]
  omega

private theorem entries_eq_of_dlookup {first second : List (Sigma fun _ : K => V)} (nodup : first.NodupKeys)
    (keys : first.keys = second.keys) (same : ∀ key, first.dlookup key = second.dlookup key) : first = second := by
  induction first generalizing second with
  | nil => exact (List.map_eq_nil_iff.mp keys.symm).symm
  | cons entry rest ih =>
    obtain ⟨key, value⟩ := entry
    cases second with
    | nil => cases keys
    | cons other others =>
      obtain ⟨key', value'⟩ := other
      have tails : rest.keys = others.keys := (List.cons.inj keys).2
      have heads : key = key' := (List.cons.inj keys).1
      subst heads
      obtain ⟨fresh, nodup⟩ := List.nodupKeys_cons.mp nodup
      have here := same key
      rw [List.dlookup_cons_eq, List.dlookup_cons_eq, Option.some.injEq] at here
      subst here
      refine congrArg _ (ih nodup tails fun probe => ?_)
      by_cases held : probe = key
      · subst held
        rw [List.dlookup_eq_none.mpr fresh, List.dlookup_eq_none.mpr (tails ▸ fresh)]
      · have there := same probe
        have skip (tail : List (Sigma fun _ : K => V)) :
            List.dlookup probe (⟨key, value⟩ :: tail) = List.dlookup probe tail :=
          List.dlookup_cons_ne (β := fun _ : K => V) tail ⟨key, value⟩ held
        rw [skip, skip] at there
        exact there

/-- Two tables that are walked in one order of their keys and answer alike are the same. -/
theorem ext_lookup {first second : Table K V} (keys : first.keys = second.keys)
    (same : ∀ key, first.lookup key = second.lookup key) : first = second :=
  AList.ext (entries_eq_of_dlookup first.nodupKeys keys same)

/-- Writing to a key that is there moves nothing. -/
theorem keys_set_of_mem {table : Table K V} {key : K} (held : key ∈ table) (value : V) :
    (table.set key value).keys = table.keys := by
  rw [set, if_pos held]
  exact AList.keys_replace key value table

theorem keys_set_of_not_mem {table : Table K V} {key : K} (missing : key ∉ table) (value : V) :
    (table.set key value).keys = key :: table.keys := by
  rw [set, if_neg missing, AList.keys_insert, List.erase_of_not_mem fun held => missing (AList.mem_keys.mpr held)]

/-- Writing what is there already changes nothing. -/
theorem set_of_lookup {table : Table K V} {key : K} {value : V} (held : table.lookup key = some value) :
    table.set key value = table := by
  have member : key ∈ table := AList.lookup_isSome.mp (by rw [held, Option.isSome_some])
  refine ext_lookup (keys_set_of_mem member value) fun probe => ?_
  rw [lookup_set]
  split
  · rename_i same
    rw [same, held]
  · rfl

/-- Taking out several keys takes out each of them. -/
theorem lookup_foldl_erase (table : Table K V) (keys : List K) (probe : K) :
    (keys.foldl (fun current key => current.erase key) table).lookup probe =
      if probe ∈ keys then none else table.lookup probe := by
  induction keys generalizing table with
  | nil => simp
  | cons key rest ih =>
    rw [List.foldl_cons, ih, lookup_erase_eq]
    by_cases here : probe = key
    · simp [here]
    · simp [here]

/-- Write one entry per element, in order: `for (x : xs) table[key x] = value x`. -/
def writeAll (table : Table K V) (key : A → K) (value : A → V) (xs : List A) : Table K V :=
  xs.foldl (fun current x => current.set (key x) (value x)) table

@[simp] theorem writeAll_nil (table : Table K V) (key : A → K) (value : A → V) :
    table.writeAll key value [] = table := rfl

@[simp] theorem writeAll_cons (table : Table K V) (key : A → K) (value : A → V) (x : A) (xs : List A) :
    table.writeAll key value (x :: xs) = writeAll (table.set (key x) (value x)) key value xs := rfl

/-- The last element that writes a key decides its value. -/
theorem lookup_writeAll (table : Table K V) (key : A → K) (value : A → V) (xs : List A) (probe : K) :
    (table.writeAll key value xs).lookup probe =
      ((xs.reverse.find? fun x => key x = probe).map value).or (table.lookup probe) := by
  induction xs generalizing table with
  | nil => simp
  | cons x xs ih =>
    rw [writeAll_cons, ih, List.reverse_cons, List.find?_append, lookup_set]
    cases xs.reverse.find? (fun x => decide (key x = probe)) with
    | some later => simp
    | none =>
      by_cases same : key x = probe
      · simp [same]
      · simp [same, Ne.symm same]

/-- The same in the order of the writes: the last of the values written under the key. -/
theorem lookup_writeAll_eq_getLast? (table : Table K V) (key : A → K) (value : A → V) (xs : List A) (probe : K) :
    (table.writeAll key value xs).lookup probe =
      ((xs.filter fun x => key x = probe).map value).getLast?.or (table.lookup probe) := by
  rw [lookup_writeAll, List.getLast?_map, List.getLast?_eq_head?_reverse, ← List.filter_reverse, List.head?_filter]

theorem keys_writeAll_of_mem {table : Table K V} {key : A → K} {xs : List A} (value : A → V)
    (held : ∀ x ∈ xs, key x ∈ table) : (table.writeAll key value xs).keys = table.keys := by
  induction xs generalizing table with
  | nil => rfl
  | cons x rest ih =>
    have kept := keys_set_of_mem (held x List.mem_cons_self) (value x)
    rw [writeAll_cons, ih fun y member => mem_set.mpr (.inr (held y (List.mem_cons_of_mem x member))), kept]

theorem mem_writeAll {table : Table K V} {key : A → K} {xs : List A} (value : A → V) {x : A} (member : x ∈ xs) :
    key x ∈ table.writeAll key value xs := by
  rw [← AList.lookup_isSome, lookup_writeAll, Option.isSome_or, Option.isSome_map, List.find?_isSome.mpr]
  · rfl
  · exact ⟨x, List.mem_reverse.mpr member, by simp⟩

/-- Writing the same entries once more changes nothing. -/
theorem writeAll_twice (table : Table K V) (key : A → K) (value : A → V) (xs : List A) :
    writeAll (table.writeAll key value xs) key value xs = table.writeAll key value xs := by
  refine ext_lookup (keys_writeAll_of_mem value fun x member => mem_writeAll value member) fun probe => ?_
  rw [lookup_writeAll, lookup_writeAll, ← Option.or_assoc, Option.or_self]

/-- A key no element writes keeps its value. -/
theorem lookup_writeAll_of_not_mem {table : Table K V} {key : A → K} {value : A → V} {xs : List A}
    {probe : K} (absent : ∀ x ∈ xs, key x ≠ probe) :
    (table.writeAll key value xs).lookup probe = table.lookup probe := by
  have none : xs.reverse.find? (fun x => decide (key x = probe)) = none := by
    simpa using absent
  rw [lookup_writeAll, none]
  rfl

/-- When every element that writes a key writes the same value, that value stands. -/
theorem lookup_writeAll_of_mem {table : Table K V} {key : A → K} {value : A → V} {xs : List A}
    {x : A} (member : x ∈ xs) (agree : ∀ y ∈ xs, key y = key x → value y = value x) :
    (table.writeAll key value xs).lookup (key x) = some (value x) := by
  rw [lookup_writeAll]
  cases found : xs.reverse.find? (fun y => decide (key y = key x)) with
  | none =>
    rw [List.find?_eq_none] at found
    exact absurd (decide_eq_true rfl) (found x (List.mem_reverse.mpr member))
  | some y =>
    have same : key y = key x := by simpa using List.find?_some found
    simp [agree y (List.mem_reverse.mp (List.mem_of_find?_eq_some found)) same]

/-- `table[outer][inner]`, where either may be missing. -/
def lookupNested {L : Type x} [DecidableEq L] (table : Table K (Table L V)) (outer : K) (inner : L) :
    Option V :=
  (table.lookup outer).bind fun row => row.lookup inner

/-- `table[outer][inner] = value`, making the row where it is missing. -/
def setNested {L : Type x} [DecidableEq L] (table : Table K (Table L V)) (outer : K) (inner : L)
    (value : V) : Table K (Table L V) :=
  table.set outer (((table.lookup outer).getD ∅).set inner value)

theorem lookupNested_setNested {L : Type x} [DecidableEq L] (table : Table K (Table L V))
    (outer probe : K) (inner cell : L) (value : V) :
    (table.setNested outer inner value).lookupNested probe cell =
      if probe = outer ∧ cell = inner then some value else table.lookupNested probe cell := by
  unfold lookupNested setNested
  rw [lookup_set]
  by_cases same : probe = outer
  · subst same
    cases table.lookup probe with
    | none => simp [lookup_set]
    | some row => simp [lookup_set]
  · simp [same]

end
end Table

/-- A finite set, walked in the order of its list; no element is walked twice. -/
structure Roster (A : Type u) where
  list : List A := []
  nodup : list.Nodup := by simp
  deriving DecidableEq

namespace Roster
variable {A : Type u} {B : Type v}

instance : Membership A (Roster A) := ⟨fun roster a => a ∈ roster.list⟩

theorem mem_list {roster : Roster A} {a : A} : a ∈ roster.list ↔ a ∈ roster := Iff.rfl

instance : EmptyCollection (Roster A) := ⟨{}⟩

@[simp] theorem not_mem_empty (a : A) : a ∉ (∅ : Roster A) := List.not_mem_nil

variable [DecidableEq A]

instance (roster : Roster A) (a : A) : Decidable (a ∈ roster) :=
  inferInstanceAs (Decidable (a ∈ roster.list))

/-- Add an element at the end of the walk, unless it is there already. -/
def insert (roster : Roster A) (a : A) : Roster A :=
  if fresh : a ∈ roster.list then roster
  else ⟨roster.list ++ [a], List.nodup_append.mpr ⟨roster.nodup, List.nodup_singleton a, by
    rintro b held c single rfl
    exact fresh (List.mem_singleton.mp single ▸ held)⟩⟩

def erase (roster : Roster A) (a : A) : Roster A := ⟨roster.list.erase a, roster.nodup.erase a⟩

@[simp] theorem mem_insert {roster : Roster A} {a b : A} : b ∈ roster.insert a ↔ b = a ∨ b ∈ roster := by
  unfold insert
  split
  · rename_i held
    exact ⟨.inr, fun either => either.elim (fun same => same ▸ held) id⟩
  · simp [← mem_list, or_comm]

@[simp] theorem mem_erase {roster : Roster A} {a b : A} : b ∈ roster.erase a ↔ b ≠ a ∧ b ∈ roster := by
  simp [← mem_list, erase, roster.nodup.mem_erase_iff]

/-- A walk whose every step inserts. -/
theorem mem_foldl_insert {step : Roster A → B → Roster A} {key : B → A} {xs : List B} {roster : Roster A}
    {a : A} (inserts : ∀ x ∈ xs, ∀ current, step current x = current.insert (key x)) :
    a ∈ xs.foldl step roster ↔ (∃ x ∈ xs, key x = a) ∨ a ∈ roster := by
  induction xs generalizing roster with
  | nil => simp
  | cons x xs ih =>
    rw [List.foldl_cons, ih fun y member => inserts y (List.mem_cons_of_mem x member),
      inserts x List.mem_cons_self]
    simp only [mem_insert, List.mem_cons, exists_eq_or_imp, eq_comm (a := a)]
    exact or_left_comm.trans or_assoc.symm

/-- A walk whose every step erases. -/
theorem mem_foldl_erase {step : Roster A → B → Roster A} {key : B → A} {xs : List B} {roster : Roster A}
    {a : A} (erases : ∀ x ∈ xs, ∀ current, step current x = current.erase (key x)) :
    a ∈ xs.foldl step roster ↔ (∀ x ∈ xs, key x ≠ a) ∧ a ∈ roster := by
  induction xs generalizing roster with
  | nil => simp
  | cons x xs ih =>
    rw [List.foldl_cons, ih fun y member => erases y (List.mem_cons_of_mem x member),
      erases x List.mem_cons_self]
    simp only [mem_erase, List.forall_mem_cons, ne_eq, eq_comm (a := a)]
    exact and_left_comm.trans and_assoc.symm

/-- The elements of a list, each once, in order of first occurrence. -/
def ofList (xs : List A) : Roster A := xs.foldl insert ∅

@[simp] theorem mem_ofList {xs : List A} {a : A} : a ∈ ofList xs ↔ a ∈ xs := by
  have walked := @mem_foldl_insert A A _ insert id xs ∅ a fun _ _ _ => rfl
  simpa [ofList] using walked

/-- A walk over a roster into an empty one makes the same roster. -/
theorem ofList_list (roster : Roster A) : ofList roster.list = roster := by
  have appends (xs : List A) (start : Roster A) (apart : (start.list ++ xs).Nodup) :
      (xs.foldl insert start).list = start.list ++ xs := by
    induction xs generalizing start with
    | nil => simp
    | cons x xs ih =>
      have fresh : x ∉ start.list := by
        intro held
        exact (List.nodup_append.mp apart).2.2 x held x List.mem_cons_self rfl
      have added : (start.insert x).list = start.list ++ [x] := by
        rw [insert, dif_neg fresh]
      rw [List.foldl_cons, ih, added, List.append_assoc]
      · rfl
      · rw [added, List.append_assoc]
        exact apart
  have same : (ofList roster.list).list = roster.list := appends roster.list ∅ roster.nodup
  cases built : ofList roster.list
  cases roster
  rw [built] at same
  simpa using same

end Roster
end Lib
