import GhidraBridge.Lib.ShellWords

/-! The command of an upload (`BridgeConnection.opUploadBinary`, the POSIX half). The texts
of the request are written into one line, which `/bin/sh -c` reads as the arguments of
`analyzeHeadless` again. -/
namespace GhidraBridge
open Lib.ShellWords

/-- What the line is made of: the launcher, what the request says, and the temporary files. -/
structure UploadCommand where
  script : List Char
  host : List Char
  port : Int32
  repo : List Char
  user : List Char
  password : List Char
  item : List Char
  analysisJson : List Char
  comment : List Char
  folder : List Char
  tempBinDir : List Char
  scriptDir : List Char
  dataFile : List Char

namespace UploadCommand

/-- `[a-zA-Z0-9._-]` -/
def safe (c : Char) : Bool :=
  ('a' ≤ c && c ≤ 'z') || ('A' ≤ c && c ≤ 'Z') || ('0' ≤ c && c ≤ '9') || c = '.' || c = '_' || c = '-'

def sanitize (name : List Char) : List Char := name.map fun c => if safe c then c else '_'

/-- `new File(dir, name)` of a name without a separator. -/
def fileIn (dir name : List Char) : List Char := if name = [] then dir else dir ++ '/' :: name

variable (up : UploadCommand)

def serverUrl : List Char :=
  "ghidra://".toList ++ up.user ++ "@".toList ++ up.host ++ ":".toList ++ (toString up.port.toInt).toList ++
    "/".toList ++ up.repo

def tempBin : List Char := fileIn up.tempBinDir (sanitize up.item)

/-- `comment.replace("\"", "'")` -/
def commitComment : List Char := up.comment.map fun c => if c = '\"' then '\'' else c

/-- The line given to the shell. -/
def sh : List Char :=
  "\"".toList ++ up.script ++ "\"".toList ++
    " \"".toList ++ up.serverUrl ++ "\"".toList ++
    " -connect ".toList ++ up.user ++
    (if up.password = [] then [] else " -p".toList) ++
    " -import \"".toList ++ up.tempBin ++ "\"".toList ++
    " -noanalysis".toList ++
    (if up.analysisJson = [] then []
      else " -scriptPath \"".toList ++ up.scriptDir ++ "\"".toList ++
        " -postScript BinjaSyncScript.java \"".toList ++ up.dataFile ++ "\"".toList) ++
    " -commit \"".toList ++ up.commitComment ++ "\"".toList ++
    (if up.folder = "/".toList then [] else " -folder ".toList ++ up.folder)

/-- The pieces up to the comment, which the request's comment and folder do not reach. -/
def upToComment : List Piece :=
  [.quoted up.serverUrl, .bare "-connect".toList, .bare up.user] ++
    (if up.password = [] then [] else [.bare "-p".toList]) ++
    [.bare "-import".toList, .quoted up.tempBin, .bare "-noanalysis".toList] ++
    (if up.analysisJson = [] then []
      else [.bare "-scriptPath".toList, .quoted up.scriptDir, .bare "-postScript".toList,
        .bare "BinjaSyncScript.java".toList, .quoted up.dataFile]) ++
    [.bare "-commit".toList]

def folderPieces : List Piece :=
  if up.folder = "/".toList then [] else [.bare "-folder".toList, .bare up.folder]

/-- The arguments `analyzeHeadless` is meant to get, itself first. -/
def arguments : List (List Char) :=
  [up.script, up.serverUrl, "-connect".toList, up.user] ++
    (if up.password = [] then [] else ["-p".toList]) ++
    ["-import".toList, up.tempBin, "-noanalysis".toList] ++
    (if up.analysisJson = [] then []
      else ["-scriptPath".toList, up.scriptDir, "-postScript".toList, "BinjaSyncScript.java".toList, up.dataFile]) ++
    ["-commit".toList, up.commitComment] ++
    (if up.folder = "/".toList then [] else ["-folder".toList, up.folder])

theorem sh_eq :
    up.sh = line (.quoted up.script) (up.upToComment ++ .quoted up.commitComment :: up.folderPieces) := by
  unfold sh line upToComment folderPieces
  split <;> split <;> split <;> simp [appended, Piece.written]

theorem arguments_eq :
    up.arguments =
      (Piece.quoted up.script :: (up.upToComment ++ .quoted up.commitComment :: up.folderPieces)).map Piece.text := by
  unfold arguments upToComment folderPieces
  split <;> split <;> split <;> simp [Piece.text]

theorem isLiteral_safe {c : Char} (here : safe c = true) : isLiteral c = true := by
  have notSafe : ∀ c ∈ '\x00' :: ' ' :: '\t' :: '\"' :: '\'' :: '\\' :: specials, safe c = false := by decide
  have other : c ∉ '\x00' :: ' ' :: '\t' :: '\"' :: '\'' :: '\\' :: specials := by
    intro there
    rw [notSafe c there] at here
    cases here
  simp only [List.mem_cons, not_or] at other
  simp [isLiteral, isBlank, other]

/-- No name of an item changes how the line is read. -/
theorem quotable_tempBin {up : UploadCommand} (dir : quotable false up.tempBinDir = true) :
    quotable false up.tempBin = true := by
  unfold tempBin fileIn
  split
  · exact dir
  · refine quotable_append dir (quotable_plain ?_)
    rw [List.all_cons, Bool.and_eq_true_iff, List.all_eq_true]
    refine ⟨by decide, fun c there => ?_⟩
    obtain ⟨of, -, rfl⟩ := List.mem_map.mp there
    split
    · exact isLiteral_safe ‹_›
    · decide

/-- The texts that neither the comment nor the folder of a request reaches. -/
structure Sound (up : UploadCommand) : Prop where
  script : quotable false up.script = true
  serverUrl : quotable false up.serverUrl = true
  user : bareable up.user = true
  tempBinDir : quotable false up.tempBinDir = true
  scriptDir : quotable false up.scriptDir = true
  dataFile : quotable false up.dataFile = true

theorem Sound.pieces {up : UploadCommand} (sound : up.Sound) :
    ∀ piece ∈ .quoted up.script :: up.upToComment, piece.asItIs = true := by
  have tempBin := quotable_tempBin sound.tempBinDir
  obtain ⟨script, serverUrl, user, -, scriptDir, dataFile⟩ := sound
  unfold upToComment
  split <;> split <;> simp [Piece.asItIs, script, serverUrl, user, tempBin, scriptDir, dataFile] <;> decide

theorem Sound.through {up : UploadCommand} (sound : up.Sound) (comment : quotable false up.commitComment = true)
    {more : List Piece} (rest : ∀ piece ∈ more, piece.asItIs = true) :
    ∀ piece ∈ .quoted up.script :: (up.upToComment ++ .quoted up.commitComment :: more), piece.asItIs = true := by
  rw [← List.cons_append, List.forall_mem_append]
  exact ⟨sound.pieces, List.forall_mem_cons.mpr ⟨comment, rest⟩⟩

/-- Any shell reads the arguments the upload means where its comment, with apostrophes for
its quotes, expands nowhere and escapes nothing, and its folder is the root or has nothing
that can mean more to a shell than a character. -/
theorem arguments_read {up : UploadCommand} (shell : Shell) (sound : up.Sound)
    (comment : quotable false up.commitComment = true)
    (folder : up.folder = "/".toList ∨ bareable up.folder = true) : shell.arguments up.sh = some up.arguments := by
  rw [sh_eq, arguments_eq]
  refine shell.reads_line (sound.through comment ?_)
  unfold folderPieces
  split
  · exact List.forall_mem_nil _
  · rename_i below
    rw [List.forall_mem_cons, List.forall_mem_singleton]
    exact ⟨by decide, folder.resolve_left below⟩

/-- An upload into a folder, with analysis and a password. -/
def firstUpload : UploadCommand where
  script := "/opt/ghidra/support/analyzeHeadless".toList
  host := "re.example".toList
  port := 13100
  repo := "Firmware".toList
  user := "alice".toList
  password := "secret".toList
  item := "boot loader.bin".toList
  analysisJson := "F\n".toList
  comment := "first \"stable\" import".toList
  folder := "/stage1".toList
  tempBinDir := "/tmp/binja_bin_1".toList
  scriptDir := "/tmp/binja_script_2".toList
  dataFile := "/tmp/binja_data_3.tsv".toList

theorem firstUpload_sound : firstUpload.Sound where
  script := by decide
  serverUrl := by decide
  user := by decide
  tempBinDir := by decide
  scriptDir := by decide
  dataFile := by decide

theorem firstUpload_read : quoting.arguments firstUpload.sh = some firstUpload.arguments :=
  arguments_read quoting firstUpload_sound (by decide) (.inr (by decide))

/-- A dollar sign, or a backslash at the end, may mean something else to a shell. -/
example : quotable false "priced at $5".toList = false ∧ quotable false "C:\\".toList = false := by decide

end UploadCommand
end GhidraBridge
