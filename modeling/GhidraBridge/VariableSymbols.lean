import GhidraBridge.RamRecords
import GhidraBridge.ProgramApplier

/-! Which parameters and locals the export offers and which of them the cleanup
before a check-in keeps. The exporter reads the address of such a symbol as the
entry of its function in RAM; the cleanup keeps it only when the address is one
of the variable space. -/
namespace GhidraBridge.VariableSymbols
open Lib DatabaseExporter ProgramApplier RamRecords

/-- The encoded address carries the mark of the variable space. -/
def VariableEncoded (encoded : Int64) : Prop := segKey encoded &&& 0xF0000000 = 0x60000000

instance (encoded : Int64) : Decidable (VariableEncoded encoded) := inferInstanceAs (Decidable (_ = _))

/-- What is assumed of the program's address map. -/
structure Decodes (addrMap : Table Int64 Int64) (decodeAddress : Int64 → Option DecodedAddress) : Prop where
  variable_iff : ∀ encoded, decodeAddress encoded = some .variable ↔ VariableEncoded encoded
  ram : ∀ encoded base, RamBase addrMap encoded base → ∃ va, decodeAddress encoded = some (.memory va)

/-- The export gives this key to the client. -/
def Emitted (db : Database) (key : Int64) : Prop :=
  ∃ obj ∈ exportParameters db, obj.get? "key" = some (longJson key)

/-- Every named parameter and local is exported exactly when the cleanup keeps it. -/
def Agree (db : Database) (decodeAddress : Int64 → Option DecodedAddress) : Prop :=
  ∀ key r, db.symbols.lookup key = some r → variableName r ≠ none →
    (Emitted db key ↔ key ∈ cleanupBadVariableSymbols decodeAddress db.symbols)

section
variable {db : Database} {key : Int64} {r : SymbolRow}

theorem longJson_injective {first second : Int64} (same : longJson first = longJson second) : first = second := by
  unfold longJson at same
  exact Int64.toInt_inj.mp (by simpa using same)

theorem exportParameter_key {typeNames : Table Int64 String} {addrMap : Table Int64 Int64} {obj : Json}
    (made : exportParameter addrMap typeNames key r = some obj) :
    obj.get? "key" = some (longJson key) ∧ ¬decode r.address addrMap < 0 := by
  unfold exportParameter at made
  obtain ⟨name, _, made⟩ := Option.bind_eq_some_iff.mp made
  dsimp only at made
  split at made
  · cases made
  · rename_i nonnegative
    cases made
    exact ⟨rfl, nonnegative⟩

theorem emitted_iff (held : db.symbols.lookup key = some r) (named : variableName r ≠ none) :
    Emitted db key ↔ ¬decode r.address db.addressMap < 0 := by
  constructor
  · rintro ⟨obj, member, keyed⟩
    obtain ⟨⟨key', r'⟩, listed, made⟩ := List.mem_filterMap.mp member
    obtain ⟨keyed', nonnegative⟩ := exportParameter_key made
    rw [keyed, Option.some.injEq] at keyed'
    have same := longJson_injective keyed'
    subst same
    have sameRow := (Table.mem_items.mp listed).symm.trans held
    rw [Option.some.injEq] at sameRow
    rwa [sameRow] at nonnegative
  · intro nonnegative
    obtain ⟨name, found⟩ := Option.ne_none_iff_exists'.mp named
    have made : ∃ obj, exportParameter db.addressMap db.typeNames key r = some obj := by
      unfold exportParameter
      rw [found, Option.bind_some]
      exact ⟨_, if_neg nonnegative⟩
    obtain ⟨obj, made⟩ := made
    refine ⟨obj, ?_, (exportParameter_key made).1⟩
    exact List.mem_filterMap.mpr ⟨(key, r), Table.mem_items.mpr held, made⟩

theorem kept_iff (decodeAddress : Int64 → Option DecodedAddress) (held : db.symbols.lookup key = some r) :
    key ∈ cleanupBadVariableSymbols decodeAddress db.symbols ↔ isBadVariable decodeAddress r = false := by
  have deleted : key ∈ (db.symbols.items.filter fun entry => isBadVariable decodeAddress entry.2).map Prod.fst ↔
      isBadVariable decodeAddress r = true := by
    rw [List.mem_map]
    constructor
    · rintro ⟨⟨key', r'⟩, member, rfl⟩
      obtain ⟨listed, bad⟩ := List.mem_filter.mp member
      have same := (Table.mem_items.mp listed).symm.trans held
      rw [Option.some.injEq] at same
      rwa [same] at bad
    · intro bad
      exact ⟨(key, r), List.mem_filter.mpr ⟨Table.mem_items.mpr held, bad⟩, rfl⟩
  unfold cleanupBadVariableSymbols
  rw [← AList.lookup_isSome, Table.lookup_foldl_erase]
  by_cases bad : isBadVariable decodeAddress r = true
  · rw [if_pos (deleted.mpr bad), bad]
    simp
  · rw [if_neg (mt deleted.mp bad), held]
    simpa using bad

theorem isBadVariable_named {decodeAddress : Int64 → Option DecodedAddress} (named : variableName r ≠ none) :
    isBadVariable decodeAddress r = false ↔ decodeAddress r.address = some .variable := by
  have typed : r.type = 6 ∨ r.type = 7 := by
    by_contra other
    rw [variableName, if_neg other] at named
    exact named rfl
  simp [isBadVariable, typed]

end

/-- The exporter and the cleanup agree on every named parameter and local exactly
when, without an address map, each lies in the variable space, and with one none
does, nor in a part of RAM the exporter reaches. -/
theorem variables_agree_iff (db : Database) (decodeAddress : Int64 → Option DecodedAddress)
    (decodes : Decodes db.addressMap decodeAddress) :
    Agree db decodeAddress ↔
      ∀ key r, db.symbols.lookup key = some r → variableName r ≠ none →
        if db.addressMap.entries.isEmpty then VariableEncoded r.address
        else
          ¬VariableEncoded r.address ∧
            ∀ base, RamBase db.addressMap r.address base → ¬Reached db.addressMap r.address base := by
  refine forall₄_congr fun key r held named => ?_
  rw [emitted_iff held named, kept_iff decodeAddress held, isBadVariable_named named, decodes.variable_iff]
  cases empty : db.addressMap.entries.isEmpty with
  | true =>
    have raw : decode r.address db.addressMap = offset r.address := by
      unfold decode
      rw [if_pos empty]
    rw [raw, if_pos rfl]
    exact ⟨fun agree => agree.mp (offset_nonnegative _), fun encoded => iff_of_true (offset_nonnegative _) encoded⟩
  | false =>
    rw [decode_nonnegative_iff empty, if_neg Bool.false_ne_true]
    constructor
    · intro agree
      have apart : ¬VariableEncoded r.address := by
        intro encoded
        obtain ⟨base, ram, _⟩ := agree.mpr encoded
        obtain ⟨va, memory⟩ := decodes.ram _ _ ram
        rw [(decodes.variable_iff _).mpr encoded] at memory
        cases memory
      exact ⟨apart, fun base ram reached => apart (agree.mp ⟨base, ram, reached⟩)⟩
    · rintro ⟨apart, unreached⟩
      refine iff_of_false ?_ apart
      rintro ⟨base, ram, reached⟩
      exact unreached base ram reached

/-- A local of the variable space, in a database without an address map. -/
def localDatabase : Database :=
  { symbols := Table.set ∅ 1 { name := some "count", address := 0x6000000000000001, type := 7 } }

/-- An address map that knows the variable space and the two forms of row 0. -/
def decodeRowZero (encoded : Int64) : Option DecodedAddress :=
  if VariableEncoded encoded then some .variable
  else if segKey encoded = 0 ∨ segKey encoded = 0x20000000 then some (.memory (0x400000 + offset encoded))
  else none

/-- The local is exported and kept. -/
theorem local_is_exported_and_kept : Agree localDatabase decodeRowZero := by
  refine (variables_agree_iff localDatabase decodeRowZero ⟨?_, ?_⟩).mpr ?_
  · intro encoded
    unfold decodeRowZero
    split
    · rename_i marked
      exact iff_of_true rfl marked
    · rename_i unmarked
      refine iff_of_false ?_ unmarked
      split <;> simp
  · rintro encoded base (direct | ⟨_, row, _, held⟩)
    · cases direct
    · cases held
  · intro key r held _
    change (Table.set ∅ 1 _ : Table Int64 SymbolRow).lookup key = some r at held
    rw [Table.lookup_set] at held
    split at held
    · cases held
      have marked : VariableEncoded 0x6000000000000001 := by decide
      exact marked
    · cases held

/-- A healthy parameter, and one that an earlier check-in wrote into RAM. -/
def parameterDatabase : Database :=
  { addressMap := Table.set ∅ 0 0x400000
    symbols :=
      Table.set (Table.set ∅ 1 { name := some "argc", address := 0x6000000000000001, type := 6 }) 2
        { name := some "argv", address := 0x2000000000001000, type := 6 } }

/-- The export leaves out the healthy parameter and gives away the key of the other
one, which the cleanup deletes. -/
theorem exported_parameter_is_deleted :
    (exportParameters parameterDatabase).map (fun obj => (obj.get? "key").map Json.getInt64) =
        [some (.ok 2)] ∧
      1 ∈ cleanupBadVariableSymbols decodeRowZero parameterDatabase.symbols ∧
      2 ∉ cleanupBadVariableSymbols decodeRowZero parameterDatabase.symbols := by
  decide +kernel

end GhidraBridge.VariableSymbols
