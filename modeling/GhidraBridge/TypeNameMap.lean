import GhidraBridge.DatabaseExporter
import GhidraBridge.Lib.Passes

/-! The names of the types of a database (`buildTypeNameMap` of `DatabaseExporter.java`).
Structures, enums, typedefs and built-in types have names of their own. Pointers are named
in two passes over their table and arrays in one pass over theirs, each from the name of the
inner type if it has one by then. -/
namespace GhidraBridge.TypeNameMap
open Lib Lib.Passes

/-! ## The tables -/

/-- The name columns of a built-in type. -/
structure BuiltInRow where
  displayName : Option String
  className : Option String

/-- A pointer; the column may be unreadable. -/
structure PointerRow where
  key : Int64
  dataTypeId : Option Int64
  deriving DecidableEq

/-- An array, with its element count where newer and where older tables have it. -/
structure ArrayRow where
  key : Int64
  dataTypeId : Option Int64
  elementCount : Option Int32
  olderCount : Option Int32 := none
  deriving DecidableEq

/-- The rows of each table in the order of its iterator. A built-in table may go by one of
four names. -/
structure TypeTables where
  composites : List (Int64 × Option String) := []
  enumerations : List (Int64 × Option String) := []
  typedefs : List (Int64 × Option String) := []
  builtIns : List (Option (List (Int64 × BuiltInRow))) := []
  pointers : List PointerRow := []
  arrays : List ArrayRow := []

def PointerRow.innerId (row : PointerRow) : Int64 := row.dataTypeId.getD (-1)

def ArrayRow.innerId (row : ArrayRow) : Int64 := row.dataTypeId.getD (-1)

def ArrayRow.count (row : ArrayRow) : Int32 := (row.elementCount.or row.olderCount).getD 0

def isFilled (name : String) : Bool := name ≠ ""

/-- A row without a name is passed over. -/
def putName (out : Table Int64 String) (row : Int64 × Option String) : Table Int64 String :=
  match row.2.filter isFilled with
  | some name => out.set row.1 name
  | none => out

/-- The display name, or else the class name. -/
def BuiltInRow.name (row : BuiltInRow) : Option String := (row.displayName.filter isFilled).or row.className

/-- The names that stand in the tables. -/
def baseNames (t : TypeTables) : Table Int64 String :=
  let out := t.composites.foldl putName ∅
  let out := t.enumerations.foldl putName out
  let out := t.typedefs.foldl putName out
  ((t.builtIns.reduceOption.head?.getD []).map fun entry => (entry.1, entry.2.name)).foldl putName out

def namePointer (out : Table Int64 String) (row : PointerRow) : Table Int64 String :=
  if row.key ∈ out then out
  else
    match (if row.innerId < 0 then some "void" else out.lookup row.innerId).filter isFilled with
    | some innerName => out.set row.key (innerName ++ " *")
    | none => out

def nameArray (out : Table Int64 String) (row : ArrayRow) : Table Int64 String :=
  let innerName := if row.innerId < 0 then "" else (out.lookup row.innerId).getD ""
  if innerName ≠ "" ∧ 0 < row.count then out.set row.key (innerName ++ "[" ++ toString row.count.toInt ++ "]")
  else out

def namePointers (t : TypeTables) (out : Table Int64 String) : Table Int64 String := t.pointers.foldl namePointer out

def buildTypeNameMap (t : TypeTables) : Table Int64 String :=
  t.arrays.foldl nameArray (namePointers t (namePointers t (baseNames t)))

/-! ## The names a row should have -/

/-- A pointer or an array. -/
inductive TypeRow where
  | pointer (row : PointerRow)
  | array (row : ArrayRow)
  deriving DecidableEq

namespace TypeRow

def key : TypeRow → Int64
  | .pointer row => row.key
  | .array row => row.key

def innerId : TypeRow → Int64
  | .pointer row => row.innerId
  | .array row => row.innerId

/-- The name over that of the inner type. -/
def spell : TypeRow → String → String
  | .pointer _, inner => inner ++ " *"
  | .array row, inner => inner ++ "[" ++ toString row.count.toInt ++ "]"

def isPointer : TypeRow → Bool
  | .pointer _ => true
  | .array _ => false

/-- The row stands in its table; an array has a positive count. -/
def Listed (t : TypeTables) : TypeRow → Prop
  | .pointer row => row ∈ t.pointers
  | .array row => row ∈ t.arrays ∧ 0 < row.count

end TypeRow

/-- The rows from a pointer or array down to a type with a name of its own or to the void
pointer, and the name they spell. -/
inductive Chain (t : TypeTables) : List TypeRow → String → Prop
  | named {row : TypeRow} {name : String} (listed : row.Listed t) (given : 0 ≤ row.innerId)
      (held : (baseNames t).lookup row.innerId = some name) : Chain t [row] (row.spell name)
  | void {row : PointerRow} (listed : row ∈ t.pointers) (missing : row.innerId < 0) :
      Chain t [.pointer row] ((TypeRow.pointer row).spell "void")
  | inner {row next : TypeRow} {rest : List TypeRow} {name : String} (listed : row.Listed t) (given : 0 ≤ row.innerId)
      (leads : row.innerId = next.key) (chain : Chain t (next :: rest) name) :
      Chain t (row :: next :: rest) (row.spell name)

/-- Ids tell the rows of all tables apart. -/
structure DistinctIds (t : TypeTables) : Prop where
  once : (t.pointers.map PointerRow.key ++ t.arrays.map ArrayRow.key).Nodup
  fresh : ∀ key ∈ t.pointers.map PointerRow.key ++ t.arrays.map ArrayRow.key, (baseNames t).lookup key = none

/-- Every pointer and array with a chain has the name its chain spells. -/
def NamesComplete (t : TypeTables) : Prop :=
  ∀ row rest name, Chain t (row :: rest) name → (buildTypeNameMap t).lookup row.key = some name

/-- How often a pointer of the chain leads to one that does not stand before it. -/
def turns (t : TypeTables) : List TypeRow → Nat
  | .pointer row :: .pointer next :: rest =>
    turns t (.pointer next :: rest) + if precedes t.pointers next row then 0 else 1
  | _ => 0

/-- The passes come by in time: no pointer has an array below it and at most one leads to a
pointer behind it, and each array of arrays stands behind its elements. -/
def inTime (t : TypeTables) : List TypeRow → Bool
  | [] => true
  | .pointer row :: rest => rest.all TypeRow.isPointer && turns t (.pointer row :: rest) ≤ 1
  | .array row :: .array next :: rest => precedes t.arrays next row && inTime t (.array next :: rest)
  | .array _ :: rest => inTime t rest

/-! ## Rules -/

def pointerRule (row : PointerRow) : Rule Int64 String where
  key := row.key
  source := if row.innerId < 0 then .inl "void" else .inr row.innerId
  make inner := if inner = "" then none else some (inner ++ " *")

def arrayRule (row : ArrayRow) : Rule Int64 String where
  key := row.key
  source := if row.innerId < 0 then .inl "" else .inr row.innerId
  make inner :=
    if inner ≠ "" ∧ 0 < row.count then some (inner ++ "[" ++ toString row.count.toInt ++ "]") else none

theorem namePointer_lookup (out : Table Int64 String) (row : PointerRow) :
    (fun key => (namePointer out row).lookup key) = step (fun key => out.lookup key) (pointerRule row) := by
  have known : (out.lookup row.key).isSome = true ↔ row.key ∈ out := AList.lookup_isSome
  unfold namePointer step
  change _ = if (out.lookup row.key).isSome = true then _ else _
  by_cases held : row.key ∈ out
  · rw [if_pos held, if_pos (known.mpr held)]
  rw [if_neg held, if_neg (mt known.mp held)]
  have value : (pointerRule row).value (fun key => out.lookup key) =
      ((if row.innerId < 0 then some "void" else out.lookup row.innerId).filter isFilled).map (· ++ " *") := by
    have filtered (found : Option String) :
        (found.bind fun inner => if inner = "" then none else some (inner ++ " *")) =
          (found.filter isFilled).map (· ++ " *") := by
      cases found with
      | none => rfl
      | some inner => by_cases empty : inner = "" <;> simp [isFilled, empty]
    rw [Rule.value, pointerRule]
    dsimp only
    by_cases missing : row.innerId < 0
    · rw [if_pos missing, if_pos missing]
      exact filtered (some "void")
    · rw [if_neg missing, if_neg missing]
      exact filtered _
  rw [value]
  cases (if row.innerId < 0 then some "void" else out.lookup row.innerId).filter isFilled with
  | none => rfl
  | some inner =>
    funext key
    dsimp only [Option.map_some]
    rw [Table.lookup_set, Function.update_apply]
    rfl

/-- A pass over the pointers. -/
theorem namePointers_lookup (t : TypeTables) (out : Table Int64 String) :
    (fun key => (namePointers t out).lookup key) = Passes.pass (t.pointers.map pointerRule) fun key =>
      out.lookup key := by
  unfold namePointers Passes.pass
  induction t.pointers generalizing out with
  | nil => rfl
  | cons row rest ih => rw [List.foldl_cons, ih, List.map_cons, List.foldl_cons, namePointer_lookup]

theorem nameArray_lookup {out : Table Int64 String} {row : ArrayRow} (unknown : out.lookup row.key = none) :
    (fun key => (nameArray out row).lookup key) = step (fun key => out.lookup key) (arrayRule row) := by
  unfold nameArray step
  change _ = if (out.lookup row.key).isSome = true then _ else _
  rw [if_neg (show ¬(out.lookup row.key).isSome = true by simp [unknown])]
  have value : (arrayRule row).value (fun key => out.lookup key) =
      if (if row.innerId < 0 then "" else (out.lookup row.innerId).getD "") ≠ "" ∧ 0 < row.count then
        some ((if row.innerId < 0 then "" else (out.lookup row.innerId).getD "") ++ "[" ++
          toString row.count.toInt ++ "]")
      else none := by
    rw [Rule.value, arrayRule]
    dsimp only
    by_cases missing : row.innerId < 0
    · simp [missing]
    · rw [if_neg missing, if_neg missing, Sum.elim_inr]
      cases out.lookup row.innerId with
      | none => simp
      | some inner => rw [Option.bind_some, Option.getD_some]
  rw [value]
  generalize (if row.innerId < 0 then "" else (out.lookup row.innerId).getD "") = innerName
  by_cases named : innerName ≠ "" ∧ 0 < row.count
  · simp only [if_pos named]
    funext key
    rw [Table.lookup_set, Function.update_apply]
    rfl
  · simp only [if_neg named]

/-- The pass over the arrays, none of which has a name before it. -/
theorem nameArrays_lookup {arrays : List ArrayRow} {out : Table Int64 String}
    (once : (arrays.map ArrayRow.key).Nodup) (unknown : ∀ key ∈ arrays.map ArrayRow.key, out.lookup key = none) :
    (fun key => (arrays.foldl nameArray out).lookup key) = Passes.pass (arrays.map arrayRule) fun key =>
      out.lookup key := by
  unfold Passes.pass
  induction arrays generalizing out with
  | nil => rfl
  | cons row rest ih =>
    have ⟨absent, onceRest⟩ := List.nodup_cons.mp (List.map_cons ▸ once)
    have here := nameArray_lookup (unknown row.key (by simp))
    rw [List.foldl_cons, ih onceRest, List.map_cons, List.foldl_cons, here]
    intro key member
    have other : key ≠ row.key := fun same => absent (same ▸ member)
    have stays : (nameArray out row).lookup key = step (fun key => out.lookup key) (arrayRule row) key :=
      congrFun here key
    rw [stays, step_of_ne other]
    exact unknown key (List.mem_cons_of_mem _ member)

/-- No name of the tables is empty. -/
theorem baseNames_ne {t : TypeTables} {key : Int64} {name : String} (held : (baseNames t).lookup key = some name) :
    name ≠ "" := by
  have put (rows : List (Int64 × Option String)) (out : Table Int64 String)
      (filled : ∀ key name, out.lookup key = some name → name ≠ "") :
      ∀ key name, (rows.foldl putName out).lookup key = some name → name ≠ "" := by
    induction rows generalizing out with
    | nil => exact filled
    | cons row rest ih =>
      refine ih _ fun key name held => ?_
      rw [putName] at held
      split at held
      · rename_i given found
        rw [Table.lookup_set] at held
        split at held
        · cases held
          simpa [isFilled] using (Option.filter_eq_some_iff.mp found).2
        · exact filled key name held
      · exact filled key name held
  have empty : ∀ key name, (∅ : Table Int64 String).lookup key = some name → name ≠ "" := nofun
  exact put _ _ (put _ _ (put _ _ (put _ _ empty))) key name held

/-! ## Pointers -/

section Pointers
variable {t : TypeTables}

/-- The names after some passes over the pointers. -/
def pointerNames (t : TypeTables) (n : Nat) : Int64 → Option String :=
  (Passes.pass (t.pointers.map pointerRule))^[n] fun key => (baseNames t).lookup key

theorem pointerRules_keys (rows : List PointerRow) :
    (rows.map pointerRule).map Rule.key = rows.map PointerRow.key := by
  rw [List.map_map]
  rfl

theorem pointerNames_of_not_mem {key : Int64} (absent : key ∉ t.pointers.map PointerRow.key) (n : Nat) :
    pointerNames t n key = (baseNames t).lookup key := by
  induction n with
  | zero => rfl
  | succ n ih =>
    rw [pointerNames, Function.iterate_succ_apply', pass_of_not_mem (by rwa [pointerRules_keys]), ← pointerNames, ih]

/-- Rows of a table with distinct keys, by their keys. -/
private theorem mem_keys_iff {A : Type} {key : A → Int64} {rows before : List A} {row : A}
    (once : (rows.map key).Nodup) (part : before.Sublist rows) (member : row ∈ rows) :
    key row ∈ before.map key ↔ row ∈ before := by
  constructor
  · intro held
    obtain ⟨other, listed, same⟩ := List.mem_map.mp held
    exact List.inj_on_of_nodup_map once (part.subset listed) member same ▸ listed
  · exact fun listed => List.mem_map_of_mem listed

/-- What one more pass makes of a pointer. -/
theorem pointerNames_succ (ids : DistinctIds t) {row : PointerRow} (member : row ∈ t.pointers) (n : Nat) :
    pointerNames t (n + 1) row.key =
      (pointerNames t n row.key).or
        ((if row.innerId < 0 then some "void"
          else if row.innerId ∈ (t.pointers.takeWhile fun e => e ≠ row).map PointerRow.key then
            pointerNames t (n + 1) row.innerId
          else pointerNames t n row.innerId).bind (pointerRule row).make) := by
  have once : ((t.pointers.map pointerRule).map Rule.key).Nodup := by
    rw [pointerRules_keys]
    exact ids.once.of_append_left
  have succ : pointerNames t (n + 1) = Passes.pass (t.pointers.map pointerRule) (pointerNames t n) :=
    Function.iterate_succ_apply' ..
  rw [succ]
  cases held : pointerNames t n row.key with
  | some name => rw [pass_of_known held, Option.some_or]
  | none =>
    have here := pass_row once member held
    rw [Option.none_or]
    refine here.trans ?_
    rw [pointerRule]
    dsimp only
    by_cases missing : row.innerId < 0
    · rw [if_pos missing, if_pos missing]
      rfl
    · rw [if_neg missing, if_neg missing]
      rfl

private theorem spell_ne (row : TypeRow) (inner : String) : row.spell inner ≠ "" := by
  cases row <;> simp [TypeRow.spell]

/-- What a chain spells is never empty. -/
theorem Chain.name_ne {rows : List TypeRow} {name : String} (chain : Chain t rows name) : name ≠ "" := by
  cases chain <;> exact spell_ne _ _

/-- The first row of a chain stands in its table. -/
theorem Chain.head_listed {row : TypeRow} {rest : List TypeRow} {name : String} (chain : Chain t (row :: rest) name) :
    row.Listed t := by
  cases chain <;> assumption

theorem pointerRule_make {row : PointerRow} {inner : String} (filled : inner ≠ "") :
    (pointerRule row).make inner = some ((TypeRow.pointer row).spell inner) := if_neg filled

/-- What a pointer sees of its inner type in one more pass. -/
def innerSeen (t : TypeTables) (row : PointerRow) (n : Nat) : Option String :=
  if row.innerId < 0 then some "void"
  else if row.innerId ∈ (t.pointers.takeWhile fun e => e ≠ row).map PointerRow.key then
    pointerNames t (n + 1) row.innerId
  else pointerNames t n row.innerId

/-- A pointer has its name one pass after its inner type shows. -/
theorem pointerNames_of_inner (ids : DistinctIds t) {row : PointerRow} (member : row ∈ t.pointers) {inner : String}
    (filled : inner ≠ "") {shows : Prop} [Decidable shows] {wait : Nat}
    (seen : ∀ n, innerSeen t row n = if shows ∧ wait ≤ n then some inner else none) (n : Nat) :
    pointerNames t n row.key = if shows ∧ wait < n then some ((TypeRow.pointer row).spell inner) else none := by
  induction n with
  | zero =>
    rw [if_neg (by omega)]
    exact ids.fresh row.key (List.mem_append_left _ (List.mem_map_of_mem member))
  | succ n ih =>
    rw [pointerNames_succ ids member, ← innerSeen, seen, ih]
    by_cases done : shows ∧ wait < n
    · rw [if_pos done, Option.some_or, if_pos ⟨done.1, by omega⟩]
    · rw [if_neg done, Option.none_or]
      by_cases now : shows ∧ wait ≤ n
      · rw [if_pos now, if_pos ⟨now.1, by omega⟩, Option.bind_some, pointerRule_make filled]
      · rw [if_neg now, if_neg fun later => now ⟨later.1, by omega⟩, Option.bind_none]

/-- A pointer is named once as many passes have been made as its chain has turns, and one
more; above an array it is never named. -/
theorem pointerNames_chain (ids : DistinctIds t) {row : PointerRow} {rest : List TypeRow} {name : String}
    (chain : Chain t (.pointer row :: rest) name) (n : Nat) :
    pointerNames t n row.key =
      if rest.all TypeRow.isPointer = true ∧ turns t (.pointer row :: rest) < n then some name else none := by
  have part (row : PointerRow) {key : Int64}
      (held : key ∈ (t.pointers.takeWhile fun e => e ≠ row).map PointerRow.key) :
      key ∈ t.pointers.map PointerRow.key :=
    ((List.takeWhile_sublist _).map _).subset held
  -- an id that is no pointer's shows its name from the tables at once, or never
  have elsewhere {row : PointerRow} (given : 0 ≤ row.innerId) (absent : row.innerId ∉ t.pointers.map PointerRow.key)
      (n : Nat) : innerSeen t row n = (baseNames t).lookup row.innerId := by
    rw [innerSeen, if_neg (Int64.not_lt.mpr given), if_neg (mt (part row) absent), pointerNames_of_not_mem absent]
  generalize whole : TypeRow.pointer row :: rest = rows at chain
  induction chain generalizing row rest n with
  | named listed given held =>
    cases whole
    refine pointerNames_of_inner ids listed (baseNames_ne held) (fun n => ?_) n
    rw [elsewhere given, if_pos ⟨rfl, Nat.zero_le n⟩]
    · exact held
    · intro member
      have fresh := ids.fresh _ (List.mem_append_left _ member)
      exact absurd (held.symm.trans fresh) (Option.some_ne_none _)
  | void listed missing =>
    cases whole
    refine pointerNames_of_inner ids listed (by decide) (fun n => ?_) n
    rw [innerSeen, if_pos missing, if_pos ⟨rfl, Nat.zero_le n⟩]
  | @inner first next below inner listed given leads chain ih =>
    cases whole
    have inside : row ∈ t.pointers := listed
    cases next with
    | array next =>
      have stands : next.key ∈ t.arrays.map ArrayRow.key := List.mem_map_of_mem chain.head_listed.1
      have absent : row.innerId ∉ t.pointers.map PointerRow.key := by
        intro member
        rw [show row.innerId = next.key from leads] at member
        exact (List.disjoint_of_nodup_append ids.once) member stands
      refine pointerNames_of_inner ids inside chain.name_ne (fun n => ?_) n
      rw [elsewhere given absent, if_neg (by simp [TypeRow.isPointer]), show row.innerId = next.key from leads]
      exact ids.fresh _ (List.mem_append_right _ stands)
    | pointer next =>
      have nextInside : next ∈ t.pointers := chain.head_listed
      have later := fun n => @ih next below n rfl
      refine pointerNames_of_inner ids inside chain.name_ne (fun n => ?_) n
      have innerId : row.innerId = next.key := leads
      have nonneg : ¬row.innerId < 0 := Int64.not_lt.mpr given
      have stands : row.innerId ∈ (t.pointers.takeWhile fun e => e ≠ row).map PointerRow.key ↔
          precedes t.pointers next row = true := by
        rw [innerId, precedes, decide_eq_true_eq]
        exact mem_keys_iff ids.once.of_append_left (List.takeWhile_sublist _) nextInside
      have pointers : (TypeRow.pointer next :: below).all TypeRow.isPointer = below.all TypeRow.isPointer := by
        simp [TypeRow.isPointer]
      rw [innerSeen, if_neg nonneg, pointers, turns]
      by_cases ahead : precedes t.pointers next row = true
      · rw [if_pos (stands.mpr ahead), innerId, later, if_pos ahead]
        simp only [Nat.lt_succ_iff, Nat.add_zero]
      · rw [if_neg (mt stands.mp ahead), innerId, later, if_neg ahead]
        simp only [Nat.succ_le_iff]

end Pointers

/-! ## Arrays -/

section Arrays
variable {t : TypeTables}

theorem arrayRules_keys (rows : List ArrayRow) : (rows.map arrayRule).map Rule.key = rows.map ArrayRow.key := by
  rw [List.map_map]
  rfl

private theorem not_pointer_of_array (ids : DistinctIds t) {key : Int64} (member : key ∈ t.arrays.map ArrayRow.key) :
    key ∉ t.pointers.map PointerRow.key :=
  fun other => (List.disjoint_of_nodup_append ids.once) other member

private theorem array_unnamed (ids : DistinctIds t) {key : Int64} (member : key ∈ t.arrays.map ArrayRow.key) (n : Nat) :
    pointerNames t n key = none := by
  rw [pointerNames_of_not_mem (not_pointer_of_array ids member)]
  exact ids.fresh key (List.mem_append_right _ member)

/-- The map: a pass over the arrays after two over the pointers. -/
theorem buildTypeNameMap_lookup (ids : DistinctIds t) (key : Int64) :
    (buildTypeNameMap t).lookup key = Passes.pass (t.arrays.map arrayRule) (pointerNames t 2) key := by
  have pointers : (fun key => (namePointers t (namePointers t (baseNames t))).lookup key) = pointerNames t 2 := by
    rw [namePointers_lookup, namePointers_lookup]
    rfl
  have arrays := nameArrays_lookup ids.once.of_append_right fun key member =>
    (congrFun pointers key).trans (array_unnamed ids member 2)
  rw [pointers] at arrays
  exact congrFun arrays key

theorem pointer_lookup (ids : DistinctIds t) {row : PointerRow} (member : row ∈ t.pointers) :
    (buildTypeNameMap t).lookup row.key = pointerNames t 2 row.key := by
  rw [buildTypeNameMap_lookup ids, pass_of_not_mem]
  rw [arrayRules_keys]
  exact fun other => not_pointer_of_array ids other (List.mem_map_of_mem member)

/-- What the pass makes of an array. -/
theorem array_lookup (ids : DistinctIds t) {row : ArrayRow} (listed : (TypeRow.array row).Listed t)
    (given : 0 ≤ row.innerId) :
    (buildTypeNameMap t).lookup row.key =
      (if row.innerId ∈ (t.arrays.takeWhile fun e => e ≠ row).map ArrayRow.key then
          (buildTypeNameMap t).lookup row.innerId
        else pointerNames t 2 row.innerId).bind (arrayRule row).make := by
  have once : ((t.arrays.map arrayRule).map Rule.key).Nodup := by
    rw [arrayRules_keys]
    exact ids.once.of_append_right
  have here := pass_row once listed.1 (array_unnamed ids (List.mem_map_of_mem listed.1) 2)
  rw [buildTypeNameMap_lookup ids, buildTypeNameMap_lookup ids]
  refine here.trans ?_
  rw [arrayRule]
  dsimp only
  rw [if_neg (Int64.not_lt.mpr given)]
  rfl

theorem arrayRule_make {row : ArrayRow} {inner : String} (filled : inner ≠ "") (count : 0 < row.count) :
    (arrayRule row).make inner = some ((TypeRow.array row).spell inner) := if_pos ⟨filled, count⟩

/-- The head of a chain is named exactly when the passes come by in time. -/
theorem lookup_of_chain (ids : DistinctIds t) {row : TypeRow} {rest : List TypeRow} {name : String}
    (chain : Chain t (row :: rest) name) :
    (buildTypeNameMap t).lookup row.key = if inTime t (row :: rest) = true then some name else none := by
  generalize whole : row :: rest = rows at chain
  induction chain generalizing row rest with
  | @named first inner listed given held =>
    cases whole
    cases first with
    | pointer row =>
      rw [TypeRow.key, pointer_lookup ids listed, pointerNames_chain ids (.named listed given held)]
      rfl
    | array row =>
      have known : ∀ key ∈ t.pointers.map PointerRow.key ++ t.arrays.map ArrayRow.key, row.innerId ≠ key := by
        rintro key member rfl
        exact absurd (held.symm.trans (ids.fresh _ member)) (Option.some_ne_none _)
      have early : row.innerId ∉ (t.arrays.takeWhile fun e => e ≠ row).map ArrayRow.key := fun member =>
        known _ (List.mem_append_right _ (((List.takeWhile_sublist _).map _).subset member)) rfl
      have absent : row.innerId ∉ t.pointers.map PointerRow.key := fun member =>
        known _ (List.mem_append_left _ member) rfl
      have base : (baseNames t).lookup row.innerId = some inner := held
      rw [TypeRow.key, array_lookup ids listed given, if_neg early, pointerNames_of_not_mem absent, base,
        Option.bind_some, arrayRule_make (baseNames_ne held) listed.2]
      rfl
  | @void row listed missing =>
    cases whole
    rw [TypeRow.key, pointer_lookup ids listed, pointerNames_chain ids (.void listed missing)]
    rfl
  | @inner first next below inner listed given leads chain ih =>
    cases whole
    have later := ih rfl
    cases first with
    | pointer row =>
      rw [TypeRow.key, pointer_lookup ids listed, pointerNames_chain ids (.inner listed given leads chain), inTime]
      simp only [Bool.and_eq_true, decide_eq_true_eq, Nat.lt_succ_iff]
    | array row =>
      have innerId : row.innerId = next.key := leads
      have made : (if inTime t (next :: below) = true then some inner else none).bind (arrayRule row).make =
          if inTime t (next :: below) = true then some ((TypeRow.array row).spell inner) else none := by
        split
        · rw [Option.bind_some, arrayRule_make chain.name_ne listed.2]
        · rfl
      rw [TypeRow.key, array_lookup ids listed given, innerId]
      cases next with
      | pointer next =>
        have nextListed : next ∈ t.pointers := chain.head_listed
        have early : next.key ∉ (t.arrays.takeWhile fun e => e ≠ row).map ArrayRow.key := fun member =>
          not_pointer_of_array ids (((List.takeWhile_sublist _).map _).subset member) (List.mem_map_of_mem nextListed)
        rw [TypeRow.key, if_neg early, ← pointer_lookup ids nextListed]
        exact (congrArg (·.bind (arrayRule row).make) later).trans made
      | array next =>
        have nextListed : next ∈ t.arrays := (chain.head_listed).1
        have stands : next.key ∈ (t.arrays.takeWhile fun e => e ≠ row).map ArrayRow.key ↔
            precedes t.arrays next row = true := by
          rw [precedes, decide_eq_true_eq]
          exact mem_keys_iff ids.once.of_append_right (List.takeWhile_sublist _) nextListed
        rw [TypeRow.key, inTime]
        by_cases ahead : precedes t.arrays next row = true
        · rw [if_pos (stands.mpr ahead), ahead, Bool.true_and]
          exact (congrArg (·.bind (arrayRule row).make) later).trans made
        · rw [if_neg (mt stands.mp ahead), array_unnamed ids (List.mem_map_of_mem nextListed)]
          simp [ahead]

end Arrays

/-! ## Completeness -/

section Completeness
variable {t : TypeTables}

/-- Every name is there exactly when along every chain no pointer stands above an array, at
most one pointer leads to a pointer behind it, and each array of arrays stands behind its
elements. -/
theorem names_complete_iff (ids : DistinctIds t) :
    NamesComplete t ↔ ∀ rows name, Chain t rows name → inTime t rows = true := by
  constructor
  · intro complete rows name chain
    cases rows with
    | nil => rfl
    | cons row rest =>
      have named := complete row rest name chain
      rw [lookup_of_chain ids chain] at named
      by_contra late
      rw [if_neg late] at named
      exact absurd named.symm (Option.some_ne_none _)
  · intro timely row rest name chain
    rw [lookup_of_chain ids chain, if_pos (timely _ name chain)]

end Completeness

/-- `int`, a pointer to it and a pointer to that one behind it. -/
def twoPointers : TypeTables where
  builtIns := [none, some [(1, { displayName := some "int", className := none })]]
  pointers := [{ key := 10, dataTypeId := some 1 }, { key := 11, dataTypeId := some 10 }]

theorem two_pointers_named :
    NamesComplete twoPointers ∧ (buildTypeNameMap twoPointers).lookup 11 = some "int * *" := by
  have ids : DistinctIds twoPointers :=
    ⟨by decide, List.forall_mem_cons.mpr ⟨by decide, List.forall_mem_singleton.mpr (by decide)⟩⟩
  have toInt := @Chain.named twoPointers (.pointer { key := 10, dataTypeId := some 1 }) "int"
    (List.mem_cons_self ..) (by decide) (by decide)
  have toPointer := @Chain.inner _ (.pointer { key := 11, dataTypeId := some 10 }) _ _ _
    (List.mem_cons_of_mem _ (List.mem_cons_self ..)) (by decide) (by decide) toInt
  have complete : NamesComplete twoPointers := (names_complete_iff ids).mpr ?_
  · exact ⟨complete, complete _ _ _ toPointer⟩
  -- a pointer that leads to another is the second, and that other the first
  have leads_only : ∀ row ∈ twoPointers.pointers, ∀ next ∈ twoPointers.pointers, row.innerId = next.key →
      precedes twoPointers.pointers next row = true ∧ next.innerId = 1 := by decide
  have ends : ∀ next ∈ twoPointers.pointers, next.key ≠ 1 := by decide
  intro rows name chain
  cases chain with
  | @named row _ _ _ _ => cases row <;> rfl
  | void _ _ => rfl
  | @inner row next rest _ listed given leads below =>
    have nextListed := below.head_listed
    cases row with
    | array _ => exact nomatch listed.1
    | pointer row =>
      cases next with
      | array _ => exact nomatch nextListed.1
      | pointer next =>
        have ⟨ahead, last⟩ := leads_only row listed next nextListed leads
        cases below with
        | named _ _ _ => simp [inTime, turns, TypeRow.isPointer, ahead]
        | void _ _ => simp [inTime, turns, TypeRow.isPointer, ahead]
        | @inner _ third _ _ _ _ leads deeper =>
          have thirdListed := deeper.head_listed
          cases third with
          | array _ => exact nomatch thirdListed.1
          | pointer third => exact absurd (leads.symm.trans last) (ends third thirdListed)

/-- `int`, an array of it and a pointer to the array. -/
def pointerToArray : TypeTables where
  builtIns := [some [(1, { displayName := some "int", className := none })]]
  pointers := [{ key := 10, dataTypeId := some 20 }]
  arrays := [{ key := 20, dataTypeId := some 1, elementCount := some 4 }]

/-- The array gets its name after both passes over the pointers. -/
theorem pointer_to_array_unnamed :
    DistinctIds pointerToArray ∧ ¬NamesComplete pointerToArray ∧
      (buildTypeNameMap pointerToArray).lookup 20 = some "int[4]" ∧
      (buildTypeNameMap pointerToArray).lookup 10 = none := by
  have ids : DistinctIds pointerToArray :=
    ⟨by decide, List.forall_mem_cons.mpr ⟨by decide, List.forall_mem_singleton.mpr (by decide)⟩⟩
  have array := @Chain.named pointerToArray (.array { key := 20, dataTypeId := some 1, elementCount := some 4 }) "int"
    ⟨List.mem_singleton_self _, by decide⟩ (by decide) (by decide)
  have pointer := @Chain.inner _ (.pointer { key := 10, dataTypeId := some 20 }) _ _ _
    (List.mem_singleton_self _) (by decide) (by decide) array
  have named : (buildTypeNameMap pointerToArray).lookup 20 = some "int[4]" := lookup_of_chain ids array
  have unnamed : (buildTypeNameMap pointerToArray).lookup 10 = none := lookup_of_chain ids pointer
  refine ⟨ids, ?_, named, unnamed⟩
  intro complete
  exact Option.some_ne_none _ ((complete _ _ _ pointer).symm.trans unnamed)

end GhidraBridge.TypeNameMap
