import GhidraBridge.Lib.Nearest
import GhidraBridge.RamRecords

/-! Virtual addresses encoded for the database and decoded again. The encoder counts
an address from the row with the largest base below it, however far away, and puts
the distance into the lower half of the encoding with a bitwise or, so a distance
of 2^32 or more runs into the segment key. -/
namespace GhidraBridge.AddressEncoding
open Lib Lib.Nearest DatabaseExporter RamRecords

/-! ## The encoder -/

/-- The better of two entries for an address: the larger base that is not above it. -/
def betterEntry (va : Int64) (best entry : Int64 × Int64) : Int64 × Int64 :=
  if entry.2 ≤ va ∧ entry.2 > best.2 then entry else best

/-- The key and the base of the segment with the largest base up to the address. -/
def bestEntry (va : Int64) (addrMap : Table Int64 Int64) : Int64 × Int64 :=
  addrMap.items.foldl (betterEntry va) (-1, -1)

/-- The segment key a row stands for: a small row key is an index of the old format. -/
def rowSegKey (bestKey : Int64) : Int64 := if bestKey < 256 then 0x20000000 ||| bestKey else bestKey

/-- The encoded address of a virtual one. -/
def encodeVA (va : Int64) (addrMap : Table Int64 Int64) : Int64 :=
  let best := bestEntry va addrMap
  if best.1 < 0 then -1 else (rowSegKey best.1 <<< 32) ||| (va - best.2)

/-- The row an address is counted from: the first with the largest base from 0 up to it. -/
def CountedFrom (addrMap : Table Int64 Int64) (va row base : Int64) : Prop :=
  FirstLargest (fun entry : Int64 × Int64 => entry.2.toInt) (-1) va.toInt addrMap.items (row, base)

section
variable {addrMap : Table Int64 Int64} {va row base : Int64}

theorem betterEntry_eq_closer (va : Int64) :
    betterEntry va = closer (fun entry : Int64 × Int64 => entry.2.toInt) va.toInt := by
  funext best entry
  unfold betterEntry closer
  simp only [Int64.le_iff_toInt_le, Int64.lt_iff_toInt_lt, gt_iff_lt]

theorem bestEntry_of_countedFrom (counted : CountedFrom addrMap va row base) : bestEntry va addrMap = (row, base) := by
  rw [bestEntry, betterEntry_eq_closer]
  exact foldl_closer_eq counted

/-- Without a row to count from the encoder gives up. -/
theorem encodeVA_of_uncounted (uncounted : ¬∃ row base, CountedFrom addrMap va row base) :
    encodeVA va addrMap = -1 := by
  rcases nearest_or_none (fun entry : Int64 × Int64 => entry.2.toInt) (-1) va.toInt addrMap.items with
    smaller | ⟨⟨row, base⟩, counted⟩
  · have best : bestEntry va addrMap = (-1, -1) := by
      rw [bestEntry, betterEntry_eq_closer]
      exact foldl_closer_kept smaller
    rw [encodeVA, best]
    exact if_pos (by decide)
  · exact absurd ⟨row, base, counted⟩ uncounted

/-- What is read for a key is the base of some row. -/
theorem mem_items_of_keyBase {key : Int64} (read : keyBase addrMap key = some base) :
    ∃ found, (found, base) ∈ addrMap.items := by
  rcases Option.or_eq_some_iff.mp read with direct | ⟨_, short⟩
  · exact ⟨key, Table.mem_items.mpr direct⟩
  · by_cases marked : key >>> 8 = ramSpacePrefix
    · rw [if_pos marked] at short
      exact ⟨_, Table.mem_items.mpr short⟩
    · simp [if_neg marked] at short

end

/-! ## The two halves of an encoded address -/

section
variable (key distance : Int64)

theorem toNat_encoded : ((key <<< 32) ||| distance).toBitVec.toNat =
    key.toBitVec.toNat % 2 ^ 32 * 2 ^ 32 ||| distance.toBitVec.toNat := by
  have count : (32 : Int64).toBitVec.smod 64 = 32#64 := by decide
  have bound := key.toBitVec.isLt
  have upper : (key <<< 32).toBitVec.toNat = key.toBitVec.toNat % 2 ^ 32 * 2 ^ 32 := by
    rw [Int64.toBitVec_shiftLeft, count, BitVec.shiftLeft_eq', BitVec.toNat_shiftLeft, Nat.shiftLeft_eq]
    have width : (32#64).toNat = 32 := rfl
    rw [width]
    omega
  rw [Int64.toBitVec_or, BitVec.toNat_or, upper]

/-- The distance runs into the segment key from 2^32 on. -/
theorem encoded_upper : ((key <<< 32) ||| distance).toBitVec.toNat / 2 ^ 32 =
    key.toBitVec.toNat % 2 ^ 32 ||| distance.toBitVec.toNat / 2 ^ 32 := by
  rw [toNat_encoded, Nat.or_div_two_pow, Nat.mul_div_cancel _ (by decide)]

theorem encoded_lower : ((key <<< 32) ||| distance).toBitVec.toNat % 2 ^ 32 =
    distance.toBitVec.toNat % 2 ^ 32 := by
  rw [toNat_encoded, Nat.or_mod_two_pow, Nat.mul_mod_left, Nat.zero_or]

end

theorem nonnegative_iff (number : Int64) : 0 ≤ number ↔ number.toBitVec.toNat < 2 ^ 63 := by
  have zero : (0 : Int64).toInt = 0 := rfl
  have bound := number.toBitVec.isLt
  rw [Int64.le_iff_toInt_le, zero, toInt_eq_toNat]
  split <;> omega

/-- A sign can come from the segment key alone. -/
theorem encoded_nonnegative_iff {key distance : Int64} (forward : 0 ≤ distance) :
    (0 : Int64) ≤ (key <<< 32) ||| distance ↔ key.toBitVec.toNat % 2 ^ 32 < 2 ^ 31 := by
  have short := (nonnegative_iff distance).mp forward
  have upper := encoded_upper key distance
  have high : distance.toBitVec.toNat / 2 ^ 32 < 2 ^ 31 := by omega
  rw [nonnegative_iff]
  constructor
  · intro below
    have left := @Nat.left_le_or (key.toBitVec.toNat % 2 ^ 32) (distance.toBitVec.toNat / 2 ^ 32)
    omega
  · intro clear
    have both := Nat.or_lt_two_pow clear high
    omega

/-- The segment key read from an encoded address. -/
theorem toNat_segKey {encoded : Int64} (nonnegative : 0 ≤ encoded) :
    (segKey encoded).toBitVec.toNat = encoded.toBitVec.toNat / 2 ^ 32 := by
  have below := (nonnegative_iff encoded).mp nonnegative
  have bound := (segKey encoded).toBitVec.isLt
  have read : (segKey encoded).toInt = encoded.toInt / 2 ^ 32 := @toInt_shiftRight encoded 32 32 (by decide)
  rw [toInt_eq_toNat, toInt_eq_toNat, if_pos below] at read
  split at read <;> omega

theorem toNat_eq_toInt {number : Int64} (nonnegative : 0 ≤ number) :
    (number.toBitVec.toNat : Int) = number.toInt := by
  rw [toInt_eq_toNat, if_pos ((nonnegative_iff number).mp nonnegative)]

section
variable {key distance : Int64} (nonnegative : (0 : Int64) ≤ (key <<< 32) ||| distance)
  (near : distance.toBitVec.toNat < 2 ^ 32)
include nonnegative near

/-- A distance below 2^32 leaves the segment key alone, cut to 32 bits. -/
theorem segKey_near : segKey ((key <<< 32) ||| distance) = key &&& 0xFFFFFFFF := by
  have lower := toNat_offset key
  have upper := encoded_upper key distance
  rw [Nat.div_eq_of_lt near, Nat.or_zero] at upper
  apply Int64.toBitVec_inj.mp
  apply BitVec.eq_of_toNat_eq
  rw [toNat_segKey nonnegative, upper]
  exact lower.symm

omit nonnegative in
theorem offset_near : offset ((key <<< 32) ||| distance) = distance := by
  apply Int64.toBitVec_inj.mp
  apply BitVec.eq_of_toNat_eq
  rw [toNat_offset, encoded_lower, Nat.mod_eq_of_lt near]

end

/-! ## What is decoded again -/

/-- The address is less than 2^32 from its base, and what is read for the segment key
of the row is that base: a row of the old format has no other row under its marked
key, and a key of more than 32 bits leads back to the base when it is cut to them. -/
structure Decodable (addrMap : Table Int64 Int64) (va row base : Int64) : Prop where
  near : va.toInt - base.toInt < 2 ^ 32
  unmarked : row < 256 → ∀ other, addrMap.lookup (0x20000000 ||| row) = some other → other = base
  cut : 2 ^ 32 ≤ row.toInt → keyBase addrMap (row &&& 0xFFFFFFFF) = some base

section
variable {addrMap : Table Int64 Int64} {va row base : Int64}

/-- An address stands between its base and the top of the signed numbers. -/
theorem CountedFrom.bounds (counted : CountedFrom addrMap va row base) :
    0 ≤ base.toInt ∧ base.toInt ≤ va.toInt ∧ (va - base).toInt = va.toInt - base.toInt := by
  have above : -1 < base.toInt := counted.above
  have within : base.toInt ≤ va.toInt := counted.within
  have zero : (0 : Int64).toInt = 0 := rfl
  refine ⟨by omega, within, Int64.toInt_sub_of_le va base ?_ (Int64.le_iff_toInt_le.mpr within)⟩
  rw [Int64.le_iff_toInt_le, zero]
  omega

theorem CountedFrom.forward (counted : CountedFrom addrMap va row base) : 0 ≤ va - base := by
  obtain ⟨_, below, distance⟩ := counted.bounds
  have zero : (0 : Int64).toInt = 0 := rfl
  rw [Int64.le_iff_toInt_le, zero]
  omega

theorem encodeVA_of_countedFrom (counted : CountedFrom addrMap va row base) (indexed : 0 ≤ row) :
    encodeVA va addrMap = (rowSegKey row <<< 32) ||| (va - base) := by
  rw [encodeVA, bestEntry_of_countedFrom counted]
  exact if_neg (Int64.not_lt.mpr indexed)

/-- A row of the old format is read through its low byte when no row has its marked key. -/
theorem keyBase_marked (held : addrMap.lookup row = some base) (small : 0 ≤ row ∧ row < 256) :
    keyBase addrMap (0x20000000 ||| row) = some base ↔
      ∀ other, addrMap.lookup (0x20000000 ||| row) = some other → other = base := by
  have byte := (isByte_iff row).mp small
  have other : row ≠ 0x20000000 ||| row := by
    intro same
    have marked := @Nat.left_le_or (2 ^ 29) row.toBitVec.toNat
    have bits : row.toBitVec.toNat = 2 ^ 29 ||| row.toBitVec.toNat := by
      conv => lhs; rw [same]
      rw [Int64.toBitVec_or, BitVec.toNat_or]
      rfl
    omega
  unfold keyBase
  rw [if_pos ((shiftRight_eq_prefix_iff rfl other).mpr small), mask_eq_row rfl small, held]
  cases addrMap.lookup (0x20000000 ||| row) with
  | none => simp
  | some direct => simp

/-- A number below 2^32 is its own lower half. -/
theorem and_word_eq_self {number : Int64} (short : number.toBitVec.toNat < 2 ^ 32) :
    number &&& 0xFFFFFFFF = number := by
  have lower := toNat_offset number
  rw [Nat.mod_eq_of_lt short] at lower
  exact Int64.toBitVec_inj.mp (BitVec.eq_of_toNat_eq lower)

theorem toNat_rowSegKey_marked (small : 0 ≤ row ∧ row < 256) :
    (rowSegKey row).toBitVec.toNat = 2 ^ 29 + row.toBitVec.toNat := by
  have byte := (isByte_iff row).mp small
  rw [rowSegKey, if_pos small.2, Int64.toBitVec_or, BitVec.toNat_or, ← Bits.or_two_pow_of_lt (by omega)]
  rfl

/-- Bit 31 of the segment key is that of the row: the mark of RAM is another one. -/
theorem rowSegKey_sign (indexed : 0 ≤ row) :
    (rowSegKey row).toBitVec.toNat % 2 ^ 32 < 2 ^ 31 ↔ row.toInt % 2 ^ 32 < 2 ^ 31 := by
  have number := toNat_eq_toInt indexed
  by_cases short : row < 256
  · have byte := (isByte_iff row).mp ⟨indexed, short⟩
    rw [toNat_rowSegKey_marked ⟨indexed, short⟩]
    omega
  · rw [rowSegKey, if_neg short]
    omega

/-- What is read for the segment key of a row, cut to 32 bits. -/
theorem keyBase_rowSegKey (held : addrMap.lookup row = some base) (indexed : 0 ≤ row) :
    keyBase addrMap (rowSegKey row &&& 0xFFFFFFFF) = some base ↔
      (row < 256 → ∀ other, addrMap.lookup (0x20000000 ||| row) = some other → other = base) ∧
        (2 ^ 32 ≤ row.toInt → keyBase addrMap (row &&& 0xFFFFFFFF) = some base) := by
  have number := toNat_eq_toInt indexed
  by_cases short : row < 256
  · have byte := (isByte_iff row).mp ⟨indexed, short⟩
    have marked := toNat_rowSegKey_marked ⟨indexed, short⟩
    rw [and_word_eq_self (by omega), rowSegKey, if_pos short, keyBase_marked held ⟨indexed, short⟩]
    refine ⟨fun alone => ⟨fun _ => alone, fun long => ?_⟩, fun both => both.1 short⟩
    omega
  · rw [rowSegKey, if_neg short]
    by_cases long : 2 ^ 32 ≤ row.toInt
    · exact ⟨fun read => ⟨fun small => absurd small short, fun _ => read⟩, fun both => both.2 long⟩
    · have direct : keyBase addrMap (row &&& 0xFFFFFFFF) = some base := by
        rw [and_word_eq_self (by omega), keyBase, held]
        rfl
      exact ⟨fun _ => ⟨fun small => absurd small short, fun _ => direct⟩, fun _ => direct⟩

/-- An encoding that reaches into the segment key is never decoded again: what it
would take is a row with a larger base. -/
theorem decode_far (counted : CountedFrom addrMap va row base)
    (filled : addrMap.entries.isEmpty = false) (key : Int64) (far : 2 ^ 32 ≤ (va - base).toInt) :
    decode ((key <<< 32) ||| (va - base)) addrMap ≠ va := by
  obtain ⟨positive, below, distance⟩ := counted.bounds
  have upper := Int64.toInt_lt va
  have number := toNat_eq_toInt counted.forward
  have lower : (offset ((key <<< 32) ||| (va - base))).toInt = (va - base).toInt % 2 ^ 32 := by
    rw [← toNat_eq_toInt (Int64.not_lt.mp (offset_nonnegative _)), toNat_offset, encoded_lower]
    omega
  rw [decode_eq filled, ne_eq, ← Int64.toInt_inj]
  cases read : keyBase addrMap (segKey ((key <<< 32) ||| (va - base))) with
  | none =>
    have minus : (-1 : Int64).toInt = -1 := rfl
    simp only [Option.map_none, Option.getD_none, minus]
    omega
  | some found =>
    obtain ⟨other, member⟩ := mem_items_of_keyBase read
    have largest : found.toInt ≤ va.toInt → found.toInt ≤ base.toInt := counted.le member
    have low := Int64.le_toInt found
    have high := Int64.toInt_lt found
    simp only [Option.map_some, Option.getD_some, Int64.toInt_add, Int.bmod_def]
    generalize (offset ((key <<< 32) ||| (va - base))).toInt = step at lower ⊢
    split <;> omega

theorem decode_near (counted : CountedFrom addrMap va row base)
    (filled : addrMap.entries.isEmpty = false) {key : Int64}
    (nonnegative : (0 : Int64) ≤ (key <<< 32) ||| (va - base)) (near : (va - base).toInt < 2 ^ 32) :
    decode ((key <<< 32) ||| (va - base)) addrMap = va ↔ keyBase addrMap (key &&& 0xFFFFFFFF) = some base := by
  obtain ⟨positive, below, distance⟩ := counted.bounds
  have number := toNat_eq_toInt counted.forward
  rw [decode_eq filled, segKey_near nonnegative (by omega), offset_near (by omega)]
  cases keyBase addrMap (key &&& 0xFFFFFFFF) with
  | none =>
    have minus : (-1 : Int64).toInt = -1 := rfl
    refine iff_of_false ?_ (by simp)
    simp only [Option.map_none, Option.getD_none, ← Int64.toInt_inj, minus]
    omega
  | some found =>
    simp only [Option.map_some, Option.getD_some, Option.some.injEq]
    constructor
    · intro same
      rw [← Int64.add_left_inj (va - base), same, Int64.add_comm, Int64.sub_add_cancel]
    · rintro rfl
      rw [Int64.add_comm, Int64.sub_add_cancel]

/-- An address is counted from one row only. -/
theorem CountedFrom.unique {otherRow otherBase : Int64} (counted : CountedFrom addrMap va row base)
    (other : CountedFrom addrMap va otherRow otherBase) : row = otherRow ∧ base = otherBase := by
  have same := (bestEntry_of_countedFrom counted).symm.trans (bestEntry_of_countedFrom other)
  exact ⟨congrArg Prod.fst same, congrArg Prod.snd same⟩

/-- A negative row key encodes nothing. -/
theorem encodeVA_of_negative (counted : CountedFrom addrMap va row base) (negative : ¬0 ≤ row) :
    encodeVA va addrMap = -1 := by
  rw [encodeVA, bestEntry_of_countedFrom counted]
  exact if_pos (Int64.not_le.mp negative)

/-- What is decoded of an address that is counted from a row. -/
theorem undone_from (counted : CountedFrom addrMap va row base) :
    (0 ≤ encodeVA va addrMap → decode (encodeVA va addrMap) addrMap = va) ↔
      (0 ≤ row → row.toInt % 2 ^ 32 < 2 ^ 31 → Decodable addrMap va row base) := by
  by_cases indexed : 0 ≤ row
  · have held : addrMap.lookup row = some base := Table.mem_items.mp counted.mem
    have filled := Table.filled_of_lookup held
    have distance := counted.bounds.2.2
    rw [encodeVA_of_countedFrom counted indexed, encoded_nonnegative_iff counted.forward, rowSegKey_sign indexed,
      forall_prop_of_true indexed]
    refine forall_congr' fun signless => ?_
    have nonnegative := (encoded_nonnegative_iff counted.forward).mpr ((rowSegKey_sign indexed).mpr signless)
    by_cases near : (va - base).toInt < 2 ^ 32
    · rw [decode_near counted filled nonnegative near, keyBase_rowSegKey held indexed]
      rw [distance] at near
      exact ⟨fun both => ⟨near, both.1, both.2⟩, fun decodable => ⟨decodable.unmarked, decodable.cut⟩⟩
    · refine iff_of_false (decode_far counted filled _ (Int.not_lt.mp near)) fun decodable => near ?_
      rw [distance]
      exact decodable.near
  · rw [encodeVA_of_negative counted indexed]
    exact iff_of_true (fun negative => absurd negative (by decide)) fun present => absurd present indexed

/-- An address that could be encoded is decoded to itself exactly when the row it is
counted from, if that can encode it at all, makes it decodable. -/
theorem encoding_undone_iff (addrMap : Table Int64 Int64) (va : Int64) :
    (0 ≤ encodeVA va addrMap → decode (encodeVA va addrMap) addrMap = va) ↔
      ∀ row base, CountedFrom addrMap va row base → 0 ≤ row → row.toInt % 2 ^ 32 < 2 ^ 31 →
        Decodable addrMap va row base := by
  by_cases present : ∃ row base, CountedFrom addrMap va row base
  · obtain ⟨row, base, counted⟩ := present
    rw [undone_from counted]
    refine ⟨fun one otherRow otherBase other => ?_, fun all => all row base counted⟩
    obtain ⟨rfl, rfl⟩ := counted.unique other
    exact one
  · rw [encodeVA_of_uncounted present]
    refine iff_of_true (fun negative => absurd negative (by decide)) fun row base counted => ?_
    exact absurd ⟨row, base, counted⟩ present

end

/-- An address 2^32 above its base is encoded, with the distance in the segment key,
and decoded to -1. -/
theorem far_address_is_lost :
    ¬∀ (addrMap : Table Int64 Int64) (va : Int64),
      0 ≤ encodeVA va addrMap → decode (encodeVA va addrMap) addrMap = va := by
  intro undone
  exact absurd (undone ((∅ : Table Int64 Int64).insert 0 0x400000) 0x100400000 (by decide)) (by decide)

end GhidraBridge.AddressEncoding
