import GhidraBridge.ProgramApplier
import GhidraBridge.CheckinJson

/-! The equates of a program and the two arrays of a check-in that change them
(`ProgramApplier.java`). A rename takes the equate out and makes a new one, which
gets a key of its own. An `Equate` object is held by the key of its record, and a
call on one whose record is gone throws. -/
namespace GhidraBridge
open Lib

/-- A record of the Equates table with the references to it. -/
structure EquateRecord (space : AddressSpace) where
  name : String
  value : Int64
  refs : Roster (space.Address × Int32) := ∅
  deriving DecidableEq

/-- The equates of a program. A key is given out once, and a name belongs to one
equate. -/
structure EquateTable (space : AddressSpace) where
  records : Table Nat (EquateRecord space)
  nextKey : Nat
  fresh : ∀ key record, records.lookup key = some record → key < nextKey
  named : ∀ key record other found, records.lookup key = some record → records.lookup other = some found →
    record.name = found.name → key = other

namespace EquateTable
variable {space : AddressSpace}

instance : EmptyCollection (EquateTable space) where
  emptyCollection :=
    { records := ∅
      nextKey := 0
      fresh := by simp
      named := by simp }

def size (table : EquateTable space) : Nat := table.records.items.length

/-- `getEquate`, with the key of the record. -/
def getEquate (table : EquateTable space) (name : String) : Option (Nat × EquateRecord space) :=
  table.records.items.find? fun entry => entry.2.name = name

/-- `getEquate` finds nothing exactly for a name no equate has. -/
theorem getEquate_eq_none {table : EquateTable space} {name : String} :
    table.getEquate name = none ↔ ∀ key record, table.records.lookup key = some record → record.name ≠ name := by
  rw [getEquate, List.find?_eq_none]
  constructor
  · intro missing key record held same
    exact missing (key, record) (Table.mem_items.mpr held) (decide_eq_true same)
  · rintro missing ⟨key, record⟩ listed same
    exact missing key record (Table.mem_items.mp listed) (of_decide_eq_true same)

theorem getEquate_of_lookup {table : EquateTable space} {key : Nat} {record : EquateRecord space}
    (held : table.records.lookup key = some record) : table.getEquate record.name = some (key, record) := by
  cases found : table.getEquate record.name with
  | none => exact absurd rfl (getEquate_eq_none.mp found key record held)
  | some entry =>
    have listed := Table.mem_items.mp (List.mem_of_find?_eq_some found)
    have same : entry.2.name = record.name := by simpa using List.find?_some found
    have here := table.named entry.1 entry.2 key record listed held same
    rw [here, held, Option.some.injEq] at listed
    rw [listed, ← here]

def erase (table : EquateTable space) (key : Nat) : EquateTable space where
  records := table.records.erase key
  nextKey := table.nextKey
  fresh := by
    intro probe record held
    exact table.fresh probe record (Table.of_lookup_erase held).2
  named := by
    intro probe record other found held otherHeld same
    have held := (Table.of_lookup_erase held).2
    exact table.named probe record other found held (Table.of_lookup_erase otherHeld).2 same

def removeEquate (table : EquateTable space) (name : String) : EquateTable space :=
  match table.getEquate name with
  | none => table
  | some entry => table.erase entry.1

/-- A new record under the next key. -/
def insert (table : EquateTable space) (record : EquateRecord space) (free : table.getEquate record.name = none) :
    EquateTable space where
  records := table.records.set table.nextKey record
  nextKey := table.nextKey + 1
  fresh := by
    intro probe found held
    rw [Table.lookup_set] at held
    split at held
    · omega
    · have bound := table.fresh probe found held
      omega
  named := by
    have unused := getEquate_eq_none.mp free
    intro probe found other otherFound held otherHeld same
    rw [Table.lookup_set] at held otherHeld
    split at held
    · rename_i here
      cases held
      split at otherHeld
      · rename_i there
        rw [here, there]
      · exact absurd same.symm (unused other otherFound otherHeld)
    · split at otherHeld
      · cases otherHeld
        exact absurd same (unused probe found held)
      · exact table.named probe found other otherFound held otherHeld same

/-- `createEquate`, with the key of the new record; nothing where it throws, for a
name in use or one that is not valid. -/
def createEquate (validName : String → Bool) (table : EquateTable space) (name : String) (value : Int64) :
    Option (Nat × EquateTable space) :=
  if free : table.getEquate name = none then
    if validName name then some (table.nextKey, table.insert { name, value } free) else none
  else none

/-- The references of a record that is there. -/
def setRefs (table : EquateTable space) (key : Nat) (old : EquateRecord space)
    (held : table.records.lookup key = some old) (refs : Roster (space.Address × Int32)) : EquateTable space where
  records := table.records.set key { old with refs }
  nextKey := table.nextKey
  fresh := by
    intro probe record found
    rw [Table.lookup_set] at found
    split at found
    · rename_i here
      exact here ▸ table.fresh key old held
    · exact table.fresh probe record found
  named := by
    -- A record keeps its name, so every clash of names is one of the table before.
    have before {probe : Nat} {record : EquateRecord space}
        (found : (table.records.set key { old with refs }).lookup probe = some record) :
        ∃ earlier, table.records.lookup probe = some earlier ∧ earlier.name = record.name := by
      rw [Table.lookup_set] at found
      split at found
      · rename_i here
        cases found
        exact ⟨old, here ▸ held, rfl⟩
      · exact ⟨record, found, rfl⟩
    intro probe record other otherRecord found otherFound same
    obtain ⟨earlier, held, name⟩ := before found
    obtain ⟨otherEarlier, otherHeld, otherName⟩ := before otherFound
    exact table.named probe earlier other otherEarlier held otherHeld (by rw [name, same, otherName])

/-- `addReference` on the equate of a key; nothing where the record is gone. -/
def addReference (table : EquateTable space) (key : Nat) (ref : space.Address × Int32) :
    Option (EquateTable space) :=
  match held : table.records.lookup key with
  | none => none
  | some old => some (table.setRefs key old held (old.refs.insert ref))

/-- The `Equate` of each record, found by the record's name. -/
def byKey (table : EquateTable space) : Table Nat Nat :=
  Table.writeAll ∅ Prod.fst Prod.snd (table.records.items.filterMap fun entry =>
    (table.getEquate entry.2.name).map fun found => (entry.1, found.1))

end EquateTable

/-- The equates and the number of entries applied to them. -/
structure EquatesApplied (space : AddressSpace) where
  table : EquateTable space
  count : Nat := 0

namespace ProgramApplier
variable {space : AddressSpace}

/-- The key an id may be of. -/
def keyOf (id : Int64) : Option Nat := if id < 0 then none else some id.toInt.toNat

/-- One decoded rename: the equate is taken out before the new one is made, and
whatever throws ends the entry where it is. -/
def renameEquate (validName : String → Bool) (equates : Table Nat Nat) (table : EquateTable space) (id : Int64)
    (name : String) : EquateTable space × Bool :=
  if name = "" then (table, false)
  else
    match (keyOf id).bind equates.lookup with
    | none => (table, false)
    | some key =>
      match table.records.lookup key with
      | none => (table, false)
      | some old =>
        let removed := table.removeEquate old.name
        match removed.createEquate validName name old.value with
        | none => (removed, false)
        | some (newKey, created) =>
          (old.refs.list.foldl (fun current ref => (current.addReference newKey ref).getD current) created, true)

/-- One entry of the rename array. -/
def applyEquateRename (validName : String → Bool) (equates : Table Nat Nat) (applied : EquatesApplied space)
    (el : Json) : Option (EquatesApplied space) :=
  if el.isObject = false then none
  else do
    let id ← match el.get? "id" with
      | some member => member.getAsLong
      | none => some (-1)
    let name ← el.getStr "name" ""
    let renamed := renameEquate validName equates applied.table id name
    return { table := renamed.1, count := applied.count + (if renamed.2 then 1 else 0) }

def applyEquateRenames (validName : String → Bool) (table : EquateTable space) (equateRenames : List Json) :
    Option (EquatesApplied space) :=
  equateRenames.foldlM (applyEquateRename validName table.byKey) { table }

/-- One decoded reference. An address is a long, and a negative one is skipped. -/
def addEquateRef (equates : Table Nat Nat) (table : EquateTable space) (id : Int64) (va : UInt64)
    (opIndex : Int32) : Option (EquateTable space) :=
  ((keyOf id).bind equates.lookup).bind fun key =>
    (if va.toInt64 < 0 then none else space.getAddress va).bind fun addr => table.addReference key (addr, opIndex)

/-- One entry of the reference array. -/
def applyEquateRefAdd (equates : Table Nat Nat) (applied : EquatesApplied space) (el : Json) :
    Option (EquatesApplied space) :=
  if el.isObject = false then none
  else do
    let id ← match el.get? "id" with
      | some member => member.getAsLong
      | none => some (-1)
    let va ← match el.get? "va" with
      | some member => member.getAsString.bind parseHexLong
      | none => some (-1)
    let opIndex ← match el.get? "op_index" with
      | some member => member.getAsInt
      | none => some 0
    match addEquateRef equates applied.table id va opIndex with
    | none => return applied
    | some table => return { table, count := applied.count + 1 }

def applyEquateRefAdds (table : EquateTable space) (equateRefAdds : List Json) : Option (EquatesApplied space) :=
  equateRefAdds.foldlM (applyEquateRefAdd table.byKey) { table }

end ProgramApplier
end GhidraBridge
