import GhidraBridge.Records
import GhidraBridge.Lib.Hex

/-! JSON values as both ends of the bridge read them. The text between the two
ends is taken as transparent: what one end builds is what the other one reads.
`value`, `getInt64` and `getBool` throw as the C++ library does, `getStr` and
`parseHexLong` as the Java helpers do. -/
namespace GhidraBridge
open Lib

/-- A float is kept as the integer it converts to, which is all that is read of it. -/
inductive Json where
  | null
  | bool (value : Bool)
  | int (value : Int)
  | float (truncated : Int64)
  | str (text : String)
  | arr (items : List Json)
  | obj (fields : List (String × Json))

namespace Json

def isNumber : Json → Bool
  | .int _ | .float _ => true
  | _ => false

def isObject : Json → Bool
  | .obj _ => true
  | _ => false

/-- The member of an object under a key. -/
def get? (json : Json) (key : String) : Option Json :=
  match json with
  | .obj fields => fields.lookup key
  | _ => none

/-- `contains`; `has` in the Java end. -/
def contains (json : Json) (key : String) : Bool := (json.get? key).isSome

/-- `items()` of an object. -/
def fields : Json → List (String × Json)
  | .obj fields => fields
  | _ => []

def size : Json → Nat
  | .arr items => items.length
  | .obj fields => fields.length
  | .null => 0
  | _ => 1

/-- What a loop over a value visits: a value that holds no others visits itself. -/
def elements : Json → List Json
  | .null => []
  | .arr items => items
  | .obj fields => fields.map Prod.snd
  | json => [json]

mutual

/-- What `toJson` of the Java end writes: members that are null are left out. -/
def dropNulls : Json → Json
  | .arr items => .arr (dropNullsOfItems items)
  | .obj fields => .obj (dropNullsOfFields fields)
  | json => json

def dropNullsOfItems : List Json → List Json
  | [] => []
  | item :: rest => item.dropNulls :: dropNullsOfItems rest

def dropNullsOfFields : List (String × Json) → List (String × Json)
  | [] => []
  | (_, .null) :: rest => dropNullsOfFields rest
  | (key, member) :: rest => (key, member.dropNulls) :: dropNullsOfFields rest

end

def typeError : String := "type error"

/-- `get<int64_t>`: any number, taken modulo 2^64. -/
def getInt64 : Json → Except String Int64
  | .int value => .ok (Int64.ofInt value)
  | .float truncated => .ok truncated
  | _ => .error typeError

/-- `get<int>`, the low half of the number. -/
def getInt32 (json : Json) : Except String Int32 := json.getInt64.map Int64.toInt32

def getBool : Json → Except String Bool
  | .bool value => .ok value
  | _ => .error typeError

def getString : Json → Except String String
  | .str text => .ok text
  | _ => .error typeError

/-- `value(key, dflt)`: the default only stands in for a missing member of an object. -/
def valueOr (json : Json) (key : String) (read : Json → Except String A) (dflt : A) : Except String A :=
  if json.isObject then
    match json.get? key with
    | some member => read member
    | none => .ok dflt
  else .error typeError

theorem getInt64_of_isNumber {json : Json} (number : json.isNumber = true) :
    ∃ value, json.getInt64 = .ok value := by
  cases json with
  | int value => exact ⟨_, rfl⟩
  | float truncated => exact ⟨_, rfl⟩
  | null | bool | str | arr | obj => cases number

end Json

/-- `toHex`. -/
def toHex (value : UInt64) : String := String.ofList ('0' :: 'x' :: Hex.digits value.toNat)

/-- `parseHexLong` of the Java end; `none` where `parseUnsignedLong` throws. -/
def parseHexLong (text : String) : Option UInt64 :=
  match text.toList with
  | [] => some 0
  | '0' :: 'x' :: digits | '0' :: 'X' :: digits | digits =>
    let unsigned := if digits.head? = some '+' then digits.tail else digits
    (Hex.read unsigned).bind fun value => if value < 2 ^ 64 then some (UInt64.ofNat value) else none

/-- An address survives the trip as text. -/
theorem parseHexLong_toHex (value : UInt64) : parseHexLong (toHex value) = some value := by
  have bound : value.toNat < 2 ^ 64 := value.toNat_lt
  have unsigned : (Hex.digits value.toNat).head? ≠ some '+' := by
    intro plus
    have reads := Hex.readFrom_digits value.toNat
    cases digits : Hex.digits value.toNat with
    | nil => simp [digits] at plus
    | cons c rest =>
      rw [digits, List.head?_cons, Option.some.injEq] at plus
      subst plus
      simp [digits, Hex.readFrom, Hex.digit?] at reads
  simp only [parseHexLong, toHex, String.toList_ofList]
  rw [if_neg unsigned, Hex.read_digits, Option.bind_some, if_pos bound, UInt64.ofNat_toNat]

end GhidraBridge
