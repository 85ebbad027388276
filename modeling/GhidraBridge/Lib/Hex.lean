import Mathlib.Data.Nat.Digits.Defs

/-! Hexadecimal text: the digits `%x` prints for a number read back as that
number. -/
namespace Lib.Hex

/-- The value of one hexadecimal digit, in either case. -/
def digit? (c : Char) : Option Nat :=
  if '0' ≤ c ∧ c ≤ '9' then some (c.toNat - 48)
  else if 'a' ≤ c ∧ c ≤ 'f' then some (c.toNat - 87)
  else if 'A' ≤ c ∧ c ≤ 'F' then some (c.toNat - 55)
  else none

/-- Read a run of digits behind an already read value; any other character
refuses the whole text. -/
def readFrom (value : Nat) : List Char → Option Nat
  | [] => some value
  | c :: rest => (digit? c).bind fun digit => readFrom (16 * value + digit) rest

/-- A non-empty run of digits. -/
def read (text : List Char) : Option Nat := if text = [] then none else readFrom 0 text

/-- The value of the longest run of digits a text starts with, behind an already read
value. -/
def readRun (value : Nat) : List Char → Nat
  | [] => value
  | c :: rest =>
    match digit? c with
    | some digit => readRun (16 * value + digit) rest
    | none => value

/-- The digits of a number, most significant first. -/
def digits (value : Nat) : List Char := Nat.toDigits 16 value

theorem digit_digitChar (small : value < 16) : digit? value.digitChar = some value := by
  rcases value with _ | _ | _ | _ | _ | _ | _ | _ | _ | _ | _ | _ | _ | _ | _ | _ | value
  all_goals first | rfl | omega

theorem readFrom_append (value : Nat) (first second : List Char) :
    readFrom value (first ++ second) = (readFrom value first).bind fun next => readFrom next second := by
  induction first generalizing value with
  | nil => rfl
  | cons c rest ih =>
    simp only [List.cons_append, readFrom]
    cases digit? c with
    | none => rfl
    | some digit => exact ih _

theorem readFrom_digits (value : Nat) : readFrom 0 (digits value) = some value := by
  induction value using Nat.strongRecOn with
  | _ value ih =>
    by_cases small : value < 16
    · rw [digits, Nat.toDigits_of_lt_base small]
      simp [readFrom, digit_digitChar small]
    · have split := Nat.toDigits_of_base_le (b := 16) (by omega) (Nat.le_of_not_lt small)
      rw [digits, split, readFrom_append]
      have front := ih (value / 16) (by omega)
      rw [digits] at front
      rw [front]
      simp only [Option.bind_some, readFrom, digit_digitChar (Nat.mod_lt value (by omega : 0 < 16)),
        Option.some.injEq]
      omega

/-- A text that can be read has nothing but digits. -/
theorem digit_of_readFrom {start value : Nat} {text : List Char} (reads : readFrom start text = some value) :
    ∀ c ∈ text, (digit? c).isSome := by
  induction text generalizing start with
  | nil => simp
  | cons c rest ih =>
    obtain ⟨digit, here, later⟩ := Option.bind_eq_some_iff.mp reads
    intro other member
    rcases List.mem_cons.mp member with rfl | inside
    · rw [here]
      rfl
    · exact ih later other inside

/-- A text that can be read is one run of digits. -/
theorem readRun_of_readFrom {start value : Nat} {text : List Char} (reads : readFrom start text = some value) :
    readRun start text = value := by
  induction text generalizing start with
  | nil => exact Option.some.inj reads
  | cons c rest ih =>
    obtain ⟨digit, here, later⟩ := Option.bind_eq_some_iff.mp reads
    rw [readRun, here]
    exact ih later

/-- What is printed reads back. -/
theorem read_digits (value : Nat) : read (digits value) = some value := by
  rw [read, if_neg (by simp [digits])]
  exact readFrom_digits value

end Lib.Hex
