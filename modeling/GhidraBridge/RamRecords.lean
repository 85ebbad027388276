import GhidraBridge.DatabaseExporter

/-! Which records of RAM an export keeps. `decode` says with a negative number that
an address is not in RAM, and reads the row of an address from eight bits, so a
record whose address has its top bit set or whose row is 256 or more is dropped. -/
namespace GhidraBridge.RamRecords
open Lib DatabaseExporter

/-- The encoded address lies in RAM, over this base: its segment key is a row of
the address map, or a row marked as RAM. -/
def RamBase (addrMap : Table Int64 Int64) (encoded base : Int64) : Prop :=
  addrMap.lookup (segKey encoded) = some base ∨
    (segKey encoded ∉ addrMap ∧ ∃ row, 0x20000000 ||| row = segKey encoded ∧ addrMap.lookup row = some base)

/-- The segment key is a marked row that eight bits can hold. -/
def ShortRow (encoded : Int64) : Prop := ∃ row : Int64, 0 ≤ row ∧ row < 256 ∧ 0x20000000 ||| row = segKey encoded

/-! ## The bits of a segment key -/

theorem toInt_shiftRight (key count : Int64) {places : Nat} (counted : (count.toBitVec.smod 64).toNat = places) :
    (key >>> count).toInt = key.toInt / 2 ^ places := by
  rw [← Int64.toInt_toBitVec, Int64.toBitVec_shiftRight, BitVec.sshiftRight_eq', counted, BitVec.toInt_sshiftRight,
    Int64.toInt_toBitVec, Int.shiftRight_eq_div_pow]
  rfl

theorem toInt_shiftRight_byte (key : Int64) : (key >>> 8).toInt = key.toInt / 256 :=
  @toInt_shiftRight key 8 8 (by decide)

theorem toInt_eq_toNat (key : Int64) :
    key.toInt = if key.toBitVec.toNat < 2 ^ 63 then (key.toBitVec.toNat : Int) else key.toBitVec.toNat - 2 ^ 64 := by
  have bound := key.toBitVec.isLt
  rw [← Int64.toInt_toBitVec, BitVec.toInt_eq_toNat_cond]
  split <;> split <;> omega

theorem isByte_iff (row : Int64) : 0 ≤ row ∧ row < 256 ↔ row.toBitVec.toNat < 2 ^ 8 := by
  have bound := row.toBitVec.isLt
  have zero : (0 : Int64).toInt = 0 := rfl
  have limit : (256 : Int64).toInt = 256 := rfl
  rw [Int64.le_iff_toInt_le, Int64.lt_iff_toInt_lt, zero, limit, toInt_eq_toNat]
  split <;> omega

section
variable {key row : Int64} (named : 0x20000000 ||| row = key)
include named

private theorem toNat_marked : key.toBitVec.toNat = 2 ^ 29 ||| row.toBitVec.toNat := by
  rw [← named, Int64.toBitVec_or, BitVec.toNat_or]
  rfl

/-- The upper bits of a marked row are the RAM mark alone when the row is a byte. -/
theorem shiftRight_eq_prefix_iff (other : row ≠ key) : key >>> 8 = ramSpacePrefix ↔ 0 ≤ row ∧ row < 256 := by
  have bits := toNat_marked named
  have unmarked : 2 ^ 29 ||| row.toBitVec.toNat ≠ row.toBitVec.toNat := by
    rw [← bits]
    exact fun same => other (Int64.toBitVec_inj.mp (BitVec.eq_of_toNat_eq same.symm))
  have low := @Bits.or_two_pow_div 29 8 _ (by decide) unmarked
  have bound := key.toBitVec.isLt
  have marked : ramSpacePrefix.toInt = 2 ^ 21 := rfl
  rw [← bits] at low
  rw [isByte_iff, ← low, ← Int64.toInt_inj, toInt_shiftRight_byte, marked, toInt_eq_toNat]
  split <;> omega

theorem mask_eq_row (small : 0 ≤ row ∧ row < 256) : key &&& 0xFF = row := by
  have read := @Bits.or_two_pow_mod 29 8 _ (by decide) ((isByte_iff row).mp small)
  apply Int64.toBitVec_inj.mp
  apply BitVec.eq_of_toNat_eq
  rw [Int64.toBitVec_and, BitVec.toNat_and, toNat_marked named]
  rw [← Nat.and_two_pow_sub_one_eq_mod] at read
  exact read

end

/-- A segment key under the RAM mark is a marked byte. -/
theorem marked_of_shiftRight {key : Int64} (prefixed : key >>> 8 = ramSpacePrefix) :
    0x20000000 ||| (key &&& 0xFF) = key ∧ 0 ≤ key &&& 0xFF ∧ key &&& 0xFF < 256 := by
  have marked : ramSpacePrefix.toInt = 2 ^ 21 := rfl
  have bound := key.toBitVec.isLt
  have read : (key &&& 0xFF).toBitVec.toNat = key.toBitVec.toNat % 2 ^ 8 := by
    rw [Int64.toBitVec_and, BitVec.toNat_and]
    exact Nat.and_two_pow_sub_one_eq_mod _ 8
  have small : (key &&& 0xFF).toBitVec.toNat < 2 ^ 8 := by
    rw [read]
    exact Nat.mod_lt _ (by decide)
  have upper : key.toBitVec.toNat / 2 ^ 8 = 2 ^ 21 := by
    rw [← Int64.toInt_inj, toInt_shiftRight_byte, marked, toInt_eq_toNat] at prefixed
    split at prefixed <;> omega
  refine ⟨?_, (isByte_iff _).mpr small⟩
  apply Int64.toBitVec_inj.mp
  apply BitVec.eq_of_toNat_eq
  rw [toNat_marked rfl, Bits.or_two_pow_of_lt (by omega), read]
  omega

theorem toNat_offset (encoded : Int64) :
    (offset encoded).toBitVec.toNat = encoded.toBitVec.toNat % 2 ^ 32 := by
  rw [offset, Int64.toBitVec_and, BitVec.toNat_and]
  exact Nat.and_two_pow_sub_one_eq_mod _ 32

theorem offset_nonnegative (encoded : Int64) : ¬offset encoded < 0 := by
  have zero : (0 : Int64).toInt = 0 := rfl
  rw [Int64.lt_iff_toInt_lt, zero, toInt_eq_toNat, toNat_offset]
  split <;> omega

/-! ## Decoding an address of RAM -/

variable {addrMap : Table Int64 Int64} {encoded base : Int64}

/-- The base that is read for a segment key: of the row with this key, or else, under
the mark of RAM, of the row its low byte names. -/
def keyBase (addrMap : Table Int64 Int64) (key : Int64) : Option Int64 :=
  (addrMap.lookup key).or (if key >>> 8 = ramSpacePrefix then addrMap.lookup (key &&& 0xFF) else none)

theorem decode_eq (filled : addrMap.entries.isEmpty = false) (encoded : Int64) :
    decode encoded addrMap = ((keyBase addrMap (segKey encoded)).map (· + offset encoded)).getD (-1) := by
  unfold decode keyBase
  rw [if_neg (by simp [filled])]
  cases addrMap.lookup (segKey encoded) with
  | some base => rfl
  | none =>
    by_cases marked : segKey encoded >>> 8 = ramSpacePrefix
    · simp only [if_pos marked, Option.none_or]
      cases addrMap.lookup (segKey encoded &&& 0xFF) <;> rfl
    · simp only [if_neg marked, Option.none_or]
      rfl

/-- A base is read for a key of RAM that is a row itself or a marked row of eight bits. -/
theorem keyBase_eq_some_iff :
    keyBase addrMap (segKey encoded) = some base ↔
      RamBase addrMap encoded base ∧ (segKey encoded ∈ addrMap ∨ ShortRow encoded) := by
  rw [keyBase, Option.or_eq_some_iff]
  constructor
  · rintro (direct | ⟨missing, short⟩)
    · exact ⟨.inl direct, .inl (AList.lookup_isSome.mp (by simp [direct]))⟩
    · by_cases prefixed : segKey encoded >>> 8 = ramSpacePrefix
      · rw [if_pos prefixed] at short
        obtain ⟨named, small⟩ := marked_of_shiftRight prefixed
        exact ⟨.inr ⟨AList.lookup_eq_none.mp missing, _, named, short⟩, .inr ⟨_, small.1, small.2, named⟩⟩
      · simp [if_neg prefixed] at short
  · rintro ⟨direct | ⟨missing, row, named, held⟩, reached⟩
    · exact .inl direct
    · have other : row ≠ segKey encoded := by
        rintro rfl
        exact missing (AList.lookup_isSome.mp (by simp [held]))
      rcases reached with present | ⟨byte, small, limit, byteNamed⟩
      · exact absurd present missing
      · -- both rows are the segment key without its mark
        have same : byte = row := by
          have negative := (isByte_iff byte).mp ⟨small, limit⟩
          have marked : byte ≠ segKey encoded := by
            intro alike
            have bits := toNat_marked byteNamed
            rw [← alike, Bits.or_two_pow_of_lt (by omega)] at bits
            omega
          have prefixed := (shiftRight_eq_prefix_iff byteNamed marked).mpr ⟨small, limit⟩
          have short := (shiftRight_eq_prefix_iff named other).mp prefixed
          rw [← mask_eq_row byteNamed ⟨small, limit⟩, mask_eq_row named short]
        subst same
        refine .inr ⟨AList.lookup_eq_none.mpr missing, ?_⟩
        rw [if_pos ((shiftRight_eq_prefix_iff named other).mpr ⟨small, limit⟩), mask_eq_row named ⟨small, limit⟩, held]

/-- An address of RAM decodes to its base and offset, or to -1 when its row does
not fit in eight bits. -/
theorem decode_ram (ram : RamBase addrMap encoded base) :
    (segKey encoded ∈ addrMap ∨ ShortRow encoded → decode encoded addrMap = base + offset encoded) ∧
      (¬(segKey encoded ∈ addrMap ∨ ShortRow encoded) → decode encoded addrMap = -1) := by
  have filled : addrMap.entries.isEmpty = false := by
    rcases ram with direct | ⟨_, row, _, held⟩
    · exact Table.filled_of_lookup direct
    · exact Table.filled_of_lookup held
  rw [decode_eq filled]
  constructor
  · intro reached
    rw [keyBase_eq_some_iff.mpr ⟨ram, reached⟩]
    rfl
  · intro unreached
    cases read : keyBase addrMap (segKey encoded) with
    | none => rfl
    | some found => exact absurd (keyBase_eq_some_iff.mp read).2 unreached

/-- What it takes for an address of RAM to be exported. -/
def Reached (addrMap : Table Int64 Int64) (encoded base : Int64) : Prop :=
  (segKey encoded ∈ addrMap ∨ ShortRow encoded) ∧ ¬base + offset encoded < 0

/-- With an address map, what decodes to an address is an address of RAM. -/
theorem decode_nonnegative_iff (filled : addrMap.entries.isEmpty = false) :
    ¬decode encoded addrMap < 0 ↔ ∃ base, RamBase addrMap encoded base ∧ Reached addrMap encoded base := by
  constructor
  · intro nonnegative
    rw [decode_eq filled] at nonnegative
    cases read : keyBase addrMap (segKey encoded) with
    | none =>
      rw [read] at nonnegative
      exact absurd (show (-1 : Int64) < 0 by decide) nonnegative
    | some base =>
      rw [read] at nonnegative
      obtain ⟨ram, reached⟩ := keyBase_eq_some_iff.mp read
      exact ⟨base, ram, reached, nonnegative⟩
  · rintro ⟨base, ram, reached, nonnegative⟩
    rw [(decode_ram ram).1 reached]
    exact nonnegative

/-- The body every exporter ends with: nothing for a negative address, else an
entry with it. -/
theorem entry_reached_iff (ram : RamBase addrMap encoded base) {entry : Option Json} {rest : Json}
    (shape : entry = if decode encoded addrMap < 0 then none else some rest)
    (addr : rest.get? "addr" = some (.str (addrHex (decode encoded addrMap)))) :
    (∃ obj, entry = some obj ∧ obj.get? "addr" = some (.str (addrHex (base + offset encoded)))) ↔
      Reached addrMap encoded base := by
  obtain ⟨direct, lost⟩ := decode_ram ram
  unfold Reached
  by_cases reached : segKey encoded ∈ addrMap ∨ ShortRow encoded
  · rw [direct reached] at shape addr
    rw [and_iff_right reached]
    constructor
    · rintro ⟨obj, made, _⟩
      rw [made] at shape
      intro negative
      rw [if_pos negative] at shape
      cases shape
    · intro nonnegative
      rw [if_neg nonnegative] at shape
      exact ⟨rest, shape, addr⟩
  · have negative : decode encoded addrMap < 0 := by
      rw [lost reached]
      decide
    rw [if_pos negative] at shape
    refine iff_of_false ?_ fun both => reached both.1
    rintro ⟨obj, made, _⟩
    rw [shape] at made
    cases made

/-! ## The five exporters -/

/-- The array has the record's entry, at this address. -/
def ExportedIn (array : List Json) (entry : Option Json) (va : Int64) : Prop :=
  ∃ obj ∈ array, entry = some obj ∧ obj.get? "addr" = some (.str (addrHex va))

/-- The references exported with an equate. -/
def ListedUnder (db : Database) (id : Int64) (entry : Option Json) (va : Int64) : Prop :=
  ∃ eq ∈ exportEquates db, ∃ refs, eq.get? "id" = some (longJson id) ∧ eq.get? "refs" = some (.arr refs) ∧
    ExportedIn refs entry va

/-- Every record of RAM that passes its exporter's own filter is exported, with its
base and offset for an address. -/
structure KeepsRam (db : Database) : Prop where
  symbols : ∀ key rec base, db.symbols.lookup key = some rec → symbolName rec ≠ none →
    RamBase db.addressMap rec.address base →
    ExportedIn (exportSymbols db) (exportSymbol db.addressMap key rec) (base + offset rec.address)
  comments : ∀ key rec base, db.comments.lookup key = some rec → commentColumns rec ≠ [] →
    RamBase db.addressMap key base →
    ExportedIn (exportComments db) (exportComment db.addressMap key rec) (base + offset key)
  equateRefs : ∀ key rec base, db.equateRefs.lookup key = some rec → rec.equateId ∈ db.equates →
    RamBase db.addressMap rec.address base →
    ListedUnder db rec.equateId (exportEquateRef db.addressMap rec) (base + offset rec.address)
  bookmarks : ∀ typeId type key rec base, db.bookmarkTypes.lookup typeId = some type →
    type.bookmarks.lookup key = some rec → RamBase db.addressMap rec.address base →
    ExportedIn (exportBookmarks db) (exportBookmark db.addressMap type.name rec) (base + offset rec.address)
  dataItems : ∀ key rec base, db.dataItems.lookup key = some rec → RamBase db.addressMap key base →
    ExportedIn (exportDataItems db) (exportDataItem db.addressMap key rec) (base + offset key)

/-- The encoded addresses of the records that pass their exporter's own filter. -/
inductive Passes (db : Database) : Int64 → Prop
  | symbol (held : db.symbols.lookup key = some rec) (named : symbolName rec ≠ none) : Passes db rec.address
  | comment (held : db.comments.lookup key = some rec) (filled : commentColumns rec ≠ []) : Passes db key
  | equateRef (held : db.equateRefs.lookup key = some rec) (known : rec.equateId ∈ db.equates) :
    Passes db rec.address
  | bookmark (typed : db.bookmarkTypes.lookup typeId = some type) (held : type.bookmarks.lookup key = some rec) :
    Passes db rec.address
  | dataItem (held : db.dataItems.lookup key = some rec) : Passes db key

section
variable {db : Database}

theorem symbol_exported_iff {key : Int64} {rec : SymbolRow} (held : db.symbols.lookup key = some rec)
    (named : symbolName rec ≠ none) (ram : RamBase db.addressMap rec.address base) :
    ExportedIn (exportSymbols db) (exportSymbol db.addressMap key rec) (base + offset rec.address) ↔
      Reached db.addressMap rec.address base := by
  obtain ⟨name, found⟩ := Option.ne_none_iff_exists'.mp named
  have listed (obj : Json) (made : exportSymbol db.addressMap key rec = some obj) : obj ∈ exportSymbols db :=
    List.mem_filterMap.mpr ⟨(key, rec), Table.mem_items.mpr held, made⟩
  have shape := congrArg (Option.bind · fun name => exportSymbolAs db.addressMap key rec name) found
  rw [← @entry_reached_iff _ _ _ ram (exportSymbol db.addressMap key rec) _ shape rfl]
  exact ⟨fun ⟨obj, _, made⟩ => ⟨obj, made⟩, fun ⟨obj, made⟩ => ⟨obj, listed obj made.1, made⟩⟩

theorem comment_exported_iff {key : Int64} {rec : CommentRow} (held : db.comments.lookup key = some rec)
    (filled : commentColumns rec ≠ []) (ram : RamBase db.addressMap key base) :
    ExportedIn (exportComments db) (exportComment db.addressMap key rec) (base + offset key) ↔
      Reached db.addressMap key base := by
  have listed (obj : Json) (made : exportComment db.addressMap key rec = some obj) : obj ∈ exportComments db :=
    List.mem_filterMap.mpr ⟨(key, rec), Table.mem_items.mpr held, made⟩
  rw [← @entry_reached_iff _ _ _ ram (exportComment db.addressMap key rec) _ (if_neg filled) rfl]
  exact ⟨fun ⟨obj, _, made⟩ => ⟨obj, made⟩, fun ⟨obj, made⟩ => ⟨obj, listed obj made.1, made⟩⟩

theorem bookmark_exported_iff {typeId key : Int64} {type : BookmarkTypeRow} {rec : BookmarkRow}
    (typed : db.bookmarkTypes.lookup typeId = some type) (held : type.bookmarks.lookup key = some rec)
    (ram : RamBase db.addressMap rec.address base) :
    ExportedIn (exportBookmarks db) (exportBookmark db.addressMap type.name rec) (base + offset rec.address) ↔
      Reached db.addressMap rec.address base := by
  have listed (obj : Json) (made : exportBookmark db.addressMap type.name rec = some obj) :
      obj ∈ exportBookmarks db := by
    refine List.mem_flatMap.mpr ⟨(typeId, type), Table.mem_items.mpr typed, ?_⟩
    exact List.mem_filterMap.mpr ⟨(key, rec), Table.mem_items.mpr held, made⟩
  rw [← @entry_reached_iff _ _ _ ram (exportBookmark db.addressMap type.name rec) _ rfl rfl]
  exact ⟨fun ⟨obj, _, made⟩ => ⟨obj, made⟩, fun ⟨obj, made⟩ => ⟨obj, listed obj made.1, made⟩⟩

theorem data_item_exported_iff {key : Int64} {rec : DataRow} (held : db.dataItems.lookup key = some rec)
    (ram : RamBase db.addressMap key base) :
    ExportedIn (exportDataItems db) (exportDataItem db.addressMap key rec) (base + offset key) ↔
      Reached db.addressMap key base := by
  have listed (obj : Json) (made : exportDataItem db.addressMap key rec = some obj) : obj ∈ exportDataItems db :=
    List.mem_filterMap.mpr ⟨(key, rec), Table.mem_items.mpr held, made⟩
  rw [← @entry_reached_iff _ _ _ ram (exportDataItem db.addressMap key rec) _ rfl rfl]
  exact ⟨fun ⟨obj, _, made⟩ => ⟨obj, made⟩, fun ⟨obj, made⟩ => ⟨obj, listed obj made.1, made⟩⟩

theorem equate_ref_exported_iff {key : Int64} {rec : EquateRefRow} (held : db.equateRefs.lookup key = some rec)
    (known : rec.equateId ∈ db.equates) (ram : RamBase db.addressMap rec.address base) :
    ListedUnder db rec.equateId (exportEquateRef db.addressMap rec) (base + offset rec.address) ↔
      Reached db.addressMap rec.address base := by
  rw [← @entry_reached_iff _ _ _ ram (exportEquateRef db.addressMap rec) _ rfl rfl]
  constructor
  · rintro ⟨_, _, _, _, _, obj, _, made⟩
    exact ⟨obj, made⟩
  · rintro ⟨obj, made⟩
    have listed : obj ∈ equateRefsOf db.addressMap db rec.equateId := by
      refine List.mem_filterMap.mpr ⟨(key, rec), List.mem_filter.mpr ⟨Table.mem_items.mpr held, ?_⟩, made.1⟩
      exact decide_eq_true rfl
    obtain ⟨equate, found⟩ := Option.isSome_iff_exists.mp (AList.lookup_isSome.mpr known)
    have nonempty : (!(equateRefsOf db.addressMap db rec.equateId).isEmpty) = true := by
      cases refs : equateRefsOf db.addressMap db rec.equateId with
      | nil => simp [refs] at listed
      | cons first rest => rfl
    refine ⟨_, List.mem_map_of_mem (List.mem_filter.mpr ⟨Table.mem_items.mpr found, nonempty⟩), _, rfl, rfl, ?_⟩
    exact ⟨obj, listed, made⟩

end

/-- The exporters keep every record of RAM exactly when each of them sits below
2^63 and in a row the map has under its whole key or that a byte can name. -/
theorem exporters_keep_ram_iff (db : Database) :
    KeepsRam db ↔ ∀ encoded base, Passes db encoded → RamBase db.addressMap encoded base →
      Reached db.addressMap encoded base := by
  constructor
  · intro keeps encoded base passes ram
    cases passes with
    | symbol held named => exact (symbol_exported_iff held named ram).mp (keeps.symbols _ _ _ held named ram)
    | comment held filled => exact (comment_exported_iff held filled ram).mp (keeps.comments _ _ _ held filled ram)
    | equateRef held known =>
      exact (equate_ref_exported_iff held known ram).mp (keeps.equateRefs _ _ _ held known ram)
    | bookmark typed held => exact (bookmark_exported_iff typed held ram).mp (keeps.bookmarks _ _ _ _ _ typed held ram)
    | dataItem held => exact (data_item_exported_iff held ram).mp (keeps.dataItems _ _ _ held ram)
  · intro reached
    refine ⟨?_, ?_, ?_, ?_, ?_⟩
    · intro key rec base held named ram
      exact (symbol_exported_iff held named ram).mpr (reached _ _ (.symbol held named) ram)
    · intro key rec base held filled ram
      exact (comment_exported_iff held filled ram).mpr (reached _ _ (.comment held filled) ram)
    · intro key rec base held known ram
      exact (equate_ref_exported_iff held known ram).mpr (reached _ _ (.equateRef held known) ram)
    · intro typeId type key rec base typed held ram
      exact (bookmark_exported_iff typed held ram).mpr (reached _ _ (.bookmark typed held) ram)
    · intro key rec base held ram
      exact (data_item_exported_iff held ram).mpr (reached _ _ (.dataItem held) ram)

/-- A function of a program based in the upper half of the address space. -/
def kernelDatabase : Database :=
  { addressMap := Table.set ∅ 0 (-0x80000000)
    symbols := Table.set ∅ 1 { name := some "start_kernel", address := 0x2000000000001000, type := 5 } }

/-- The function is in RAM and named, and it is not exported. -/
theorem kernel_symbol_is_dropped :
    RamBase kernelDatabase.addressMap 0x2000000000001000 (-0x80000000) ∧
      symbolName { name := some "start_kernel", address := 0x2000000000001000, type := 5 } = some "start_kernel" ∧
      (exportSymbols kernelDatabase).length = 0 := by
  refine ⟨.inr ⟨by decide, 0, by decide, by decide⟩, by decide, by decide⟩

end GhidraBridge.RamRecords
