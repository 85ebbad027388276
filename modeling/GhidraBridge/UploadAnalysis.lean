import GhidraBridge.Lib.Hex
import GhidraBridge.Lib.Template
import GhidraBridge.Lib.Text
import GhidraBridge.SyncEngine

/-! The analysis an upload carries (`ProjectPanel::uploadToGhidra`) and the script that
reads it into the new program (`BINJA_SYNC_SCRIPT` of `BridgeConnection.java`): one line
for each function and each address comment, its fields separated by tabs. -/
namespace GhidraBridge.UploadAnalysis
open Lib Lib.Text Lib.Template

/-- What the upload reads of a function: its start, the raw name of its symbol and its
comment. -/
structure UploadFunction where
  start : UInt64
  name : String
  comment : String

/-! ## Writing -/

def escape (text : List Char) : List Char :=
  replaceAll ['\n'] ['\\', 'n'] (replaceAll ['\t'] ['\\', 't'] (replaceAll ['\\'] ['\\', '\\'] text))

/-- Functions nobody named are sent under an empty name. -/
def isDefault (name : String) : Bool :=
  startsWith name "sub_" || startsWith name "FUN_" || startsWith name "j_" || name = ""

def UploadFunction.sentName (func : UploadFunction) : String := if isDefault func.name then "" else func.name

/-- `arg(value, 0, 16)`. -/
def hexText (value : UInt64) : List Char := Hex.digits value.toNat

section Lines
variable (digits : Digits)

def functionLine (func : UploadFunction) : List Char :=
  let line := "F\t0x%1\t%2\t%3\n".toList
  let line := arg digits line (hexText func.start)
  let line := arg digits line (escape func.sentName.toList)
  arg digits line (escape func.comment.toList)

def commentLine (comment : UInt64 × String) : List Char :=
  let line := "C\t0x%1\t%2\n".toList
  let line := arg digits line (hexText comment.1)
  arg digits line (escape comment.2.toList)

/-- The functions, then the address comments that have a text. -/
def analysisText (functions : List UploadFunction) (comments : List (UInt64 × String)) : List Char :=
  functions.flatMap (functionLine digits) ++
    (comments.filter fun comment => comment.2 ≠ "").flatMap (commentLine digits)

end Lines

/-! ## Reading -/

/-- A line the script acts on. -/
inductive SyncRecord where
  | function (addr : UInt64) (name plate : String)
  | comment (addr : UInt64) (text : String)
  deriving DecidableEq

/-- Doubled backslashes wait as a null character until the other sequences are read. -/
def unescape (text : List Char) : List Char :=
  let text := replaceAll ['\\', '\\'] ['\x00'] text
  let text := replaceAll ['\\', 'n'] ['\n'] text
  let text := replaceAll ['\\', 't'] ['\t'] text
  replaceAll ['\x00'] ['\\'] text

/-- `Long.parseUnsignedLong`, behind an optional `0x`. -/
def readAddress (text : List Char) : Option UInt64 :=
  let digits := if "0x".toList.isPrefixOf text then text.drop 2 else text
  let unsigned := if digits.head? = some '+' then digits.tail else digits
  (Hex.read unsigned).bind fun value => if value < 2 ^ 64 then some (UInt64.ofNat value) else none

/-- The fields behind kind and address; a line without enough of them is passed over. -/
def readFields (addr : UInt64) (kind : List Char) (fields : List (List Char)) : Option SyncRecord :=
  if kind = ['F'] then
    match fields with
    | name :: plate :: _ => some (.function addr (String.ofList (unescape name)) (String.ofList (unescape plate)))
    | _ => none
  else if kind = ['C'] then
    match fields with
    | text :: _ => if unescape text = [] then none else some (.comment addr (String.ofList (unescape text)))
    | [] => none
  else none

def readLine (line : List Char) : Option SyncRecord :=
  match line.splitOn '\t' with
  | kind :: address :: fields => (readAddress address).bind fun addr => readFields addr kind fields
  | _ => none

/-- `BinjaSyncScript.run`: an empty line has one field and is passed over like any line
without an address. -/
def runScript (text : List Char) : List SyncRecord := (lines text).filterMap readLine

/-- What the upload means to send. -/
def records (functions : List UploadFunction) (comments : List (UInt64 × String)) : List SyncRecord :=
  (functions.map fun func => .function func.start func.sentName func.comment) ++
    (comments.filter fun comment => comment.2 ≠ "").map fun comment => .comment comment.1 comment.2

end GhidraBridge.UploadAnalysis
