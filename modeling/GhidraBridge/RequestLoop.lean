import GhidraBridge.CheckoutBookkeeping
import GhidraBridge.ListingApplier
import GhidraBridge.SessionAgreement

/-! The loop that works off the requests of one bridge connection
(`BridgeConnection.java`): each line is read, handed to the handler of its op, and an
exception of the handler becomes an error response. A handler writes its response
itself, so what it has written when it throws stays written. What the Ghidra server
answers to the calls of a request comes with the request. -/
namespace GhidraBridge
open Lib BridgeState

/-- A repository item as the server lists it. -/
structure RepositoryItem where
  name : Option String
  parentPath : Option String
  pathName : Option String
  fileID : Option String := none
  itemType : Int32 := 0
  contentType : Option String := none
  version : Int32
  versionTime : Int64
  textData : Option String := none

/-- A version of an item. -/
structure Version where
  version : Int32
  createTime : Int64
  user : Option String
  comment : Option String

/-- A checkout as the server lists it, under its id. -/
structure ListedCheckout where
  checkoutId : Int64
  status : ItemCheckoutStatus
  checkoutTime : Int64

/-- A file of `BinaryExtractor.extract`, its bytes as the text they are sent as. -/
structure ExtractedFile where
  filename : Option String
  size : Int32
  data : String

/-- The place of an item on the server. -/
structure ItemPlace where
  repo : String
  folder : String
  item : String

/-- What an upload gives the headless run: the place, the file, and the server and user
the run commits to. -/
structure UploadRequest where
  place : ItemPlace
  data : String
  comment : String
  host : String
  port : Int32
  user : String
  password : String
  analysisJson : String

/-- What the server answers to the calls of one request, each by what it is asked with.
A list or a checkout that is missing is `none`. -/
structure ServerAnswers where
  connect : GhidraServerAnswers := {}
  getRepositoryNames : Except String (List String) := .ok []
  getRepository : String → Except String Bool := fun _ => .ok true
  getItemList : (repo folder : String) → Except String (Option (List RepositoryItem)) := fun _ _ => .ok none
  getSubfolderList : (repo folder : String) → Except String (Option (List String)) := fun _ _ => .ok none
  checkout : ItemPlace → CheckoutType → (projectPath : String) → Except String (Option ListedCheckout) :=
    fun _ _ _ => .ok none
  terminateCheckout : ItemPlace → (checkoutId : Int64) → Except String Unit := fun _ _ => .ok ()
  getVersions : ItemPlace → Except String (Option (List Version)) := fun _ => .ok none
  getCheckouts : ItemPlace → Except String (Option (List ListedCheckout)) := fun _ => .ok none
  /-- `openDatabase` and the export of the database. -/
  exported : ItemPlace → (version : Int32) → Except String (List (String × Json)) := fun _ _ => .ok []
  /-- The repository, the checkouts of the item and the importer a check-in meets. -/
  repository : ItemPlace → RepositoryHandle
  checkouts : ItemPlace → Checkouts := fun _ => ∅
  apply : ItemPlace → CheckinRequest → Except String Json := fun _ _ => .ok (.obj [])
  /-- `openDatabase` and the files in the database. -/
  extract : ItemPlace → (version : Int32) → Except String (List ExtractedFile) := fun _ _ => .ok []
  /-- The end of the database that was read. -/
  close : Except String Unit := .ok ()
  /-- The upload up to the end of the headless run. -/
  upload : UploadRequest → Except String Unit := fun _ => .ok ()
  deleteItem : ItemPlace → (version : Int32) → Except String Unit := fun _ _ => .ok ()

/-- What a handler leaves: the session, the lines it has written, and the text of the
exception it ends with. -/
structure Handled where
  session : BridgeState
  written : List Json := []
  thrown : Option String := none

namespace RequestLoop
open SessionAgreement (requestId)

/-! ## Serialisation -/

/-- The name of an enumerator. -/
def checkoutTypeName : CheckoutType → String
  | .normal => "NORMAL"
  | .exclusive => "EXCLUSIVE"
  | .transient => "TRANSIENT"

/-- `CheckoutType.valueOf` of an upper-case text. -/
def checkoutTypeOf (text : String) : Option CheckoutType :=
  [CheckoutType.normal, .exclusive, .transient].find? fun type => checkoutTypeName type = text.toUpper

def itemToJson (item : RepositoryItem) : Json :=
  .obj ([("name", DatabaseExporter.textJson item.name), ("parent_path", DatabaseExporter.textJson item.parentPath),
    ("path", DatabaseExporter.textJson item.pathName), ("file_id", DatabaseExporter.textJson item.fileID),
    ("item_type", int32Json item.itemType), ("content_type", DatabaseExporter.textJson item.contentType),
    ("version", int32Json item.version), ("version_time", int64Json item.versionTime)] ++
    (item.textData.map fun text => ("text_data", Json.str text)).toList)

def checkoutToJson (co : ListedCheckout) : Json :=
  .obj [("id", int64Json co.checkoutId), ("type", .str (checkoutTypeName co.status.checkoutType)),
    ("user", .str co.status.user), ("version", int32Json co.status.checkoutVersion),
    ("time", int64Json co.checkoutTime), ("project_path", DatabaseExporter.textJson co.status.projectPath)]

def versionToJson (v : Version) : Json :=
  .obj [("version", int32Json v.version), ("time", int64Json v.createTime),
    ("user", DatabaseExporter.textJson v.user), ("comment", DatabaseExporter.textJson v.comment)]

def fileToJson (ef : ExtractedFile) : Json :=
  .obj [("filename", DatabaseExporter.textJson ef.filename), ("size", int32Json ef.size), ("data", .str ef.data)]

/-! ## The handlers -/

def nullPointer : String := "java.lang.NullPointerException"

/-- A handler that answers with its last statement. -/
def answered (id : Int32) (done : Answer × BridgeState) : Handled :=
  match done.1 with
  | .ok extra => { session := done.2, written := [respondOk id extra] }
  | .error what => { session := done.2, thrown := some what }

def readFolder (req : Json) : Option (String × String) := do
  return (← (req.get? "repo").bind Json.getAsString, ← req.getStr "folder" "/")

def readItem (req : Json) : Option ItemPlace := do
  let (repo, folder) ← readFolder req
  return { repo, folder, item := ← (req.get? "item").bind Json.getAsString }

section
variable (s : BridgeState) (req : Json) (server : ServerAnswers)

/-- A handler that reads its request, asks an open repository and answers with what it
gets; the session stays as it is. -/
def asking (read : Option A) (repo : A → String) (ask : A → Except String (List (String × Json))) :
    Answer × BridgeState :=
  (match read with
    | none => .error Json.typeError
    | some asked =>
      match s.getRepo (repo asked) with
      | .error what => .error what
      | .ok _ => ask asked, s)

def opStatus : Answer × BridgeState :=
  (.ok [("connected", .bool s.serverHandle.isSome), ("user", DatabaseExporter.textJson s.connectedUser),
    ("open_repos", .arr (s.openRepos.items.map fun entry => .str entry.1))], s)

def opListRepos : Answer × BridgeState :=
  (match s.requireConnected with
    | .error what => .error what
    | .ok () => server.getRepositoryNames.map fun repos => [("repos", .arr (repos.map .str))], s)

def opListItems : Answer × BridgeState :=
  asking s (readFolder req) Prod.fst fun (repo, folder) => (server.getItemList repo folder).map fun items =>
    [("items", .arr ((items.getD []).map itemToJson)), ("count", .int (items.getD []).length)]

def opGetSubfolders : Answer × BridgeState :=
  asking s (readFolder req) Prod.fst fun (repo, folder) => (server.getSubfolderList repo folder).map fun subs =>
    [("subfolders", .arr ((subs.getD []).map .str)), ("count", .int (subs.getD []).length)]

/-- The members of a checkout request: the item, the type and the project path. -/
def readCheckout (bridgeProjectPath : String) : Option (ItemPlace × String × String) := do
  let place ← readItem req
  return (place, ← req.getStr "type" "NORMAL", ← req.getStr "project_path" bridgeProjectPath)

/-- The type is looked up before the repository is. -/
def opCheckout (bridgeProjectPath : String) : Answer × BridgeState :=
  (match readCheckout req bridgeProjectPath with
    | none => .error Json.typeError
    | some (place, type, projectPath) =>
      match checkoutTypeOf type with
      | none => .error ("No enum constant ghidra.framework.store.CheckoutType." ++ type.toUpper)
      | some checkoutType =>
        match s.getRepo place.repo with
        | .error what => .error what
        | .ok _ =>
          match server.checkout place checkoutType projectPath with
          | .error what => .error what
          | .ok none => .error nullPointer
          | .ok (some co) => .ok [("checkout", checkoutToJson co)], s)

def readTerminateCheckout : Option (ItemPlace × Int64) := do
  return (← readItem req, ← (req.get? "checkout_id").bind Json.getAsLong)

def opTerminateCheckout : Answer × BridgeState :=
  asking s (readTerminateCheckout req) (fun asked => asked.1.repo) fun (place, checkoutId) =>
    (server.terminateCheckout place checkoutId).map fun _ => []

/-- The elements of a list that is walked; a missing one makes the walk throw. -/
def walked (listed : Except String (Option (List A))) : Except String (List A) :=
  listed.bind fun found => found.elim (.error nullPointer) .ok

def opGetVersions : Answer × BridgeState :=
  asking s (readItem req) ItemPlace.repo fun place => (walked (server.getVersions place)).map fun versions =>
    [("versions", .arr (versions.map versionToJson))]

def opGetCheckouts : Answer × BridgeState :=
  asking s (readItem req) ItemPlace.repo fun place => (walked (server.getCheckouts place)).map fun checkouts =>
    [("checkouts", .arr (checkouts.map checkoutToJson))]

/-- The session as a check-in of an item reads it. -/
def checkinSession (place : ItemPlace) : GhidraSession where
  openRepos := s.openRepos.items.map fun entry => (entry.1, server.repository { place with repo := entry.1 })
  connectedUser := s.connectedUser

def opCheckin (bridgeProjectPath : String) : Answer × BridgeState :=
  (match readItem req with
    | none => .error Json.typeError
    | some place =>
      (BridgeConnection.opCheckin (checkinSession s server place) bridgeProjectPath (server.apply place) req
        (server.checkouts place)).1, s)

/-- The item of a request and the version it asks for, -1 for the latest. -/
def readVersioned : Option (ItemPlace × Int32) := do
  let place ← readItem req
  match req.get? "version" with
  | none => return (place, -1)
  | some version => return (place, ← version.getAsInt)

/-- The repository a request names, and whether the server has it. -/
def namedRepository : Except String Bool :=
  (((req.get? "repo").bind Json.getAsString).map server.getRepository).getD (.error Json.typeError)

/-- The database of a request, read and exported. -/
def exportedDb : Answer :=
  match readVersioned req with
  | none => .error Json.typeError
  | some (place, version) => (server.exported place version).map openDbData

/-- The database is closed after the response is written, and whatever came before. -/
def opDownloadBinary (id : Int32) : Handled :=
  match readVersioned req with
  | none => { session := s, thrown := some Json.typeError }
  | some (place, version) =>
    match s.getRepo place.repo with
    | .error what => { session := s, thrown := some what }
    | .ok _ =>
      let done := answered id
        ((server.extract place version).map fun files => [("files", .arr (files.map fileToJson))], s)
      match server.close with
      | .ok () => done
      | .error what => { done with thrown := some what }

/-- The members of an upload request, with whether to keep a checkout. -/
def readUpload : Option (UploadRequest × Bool) := do
  let place ← readItem req
  let keepCheckout ← match req.get? "keep_checkout" with
    | none => some false
    | some keep => keep.getAsBoolean
  return ({
    place
    data := ← (req.get? "data").bind Json.getAsString
    comment := ← req.getStr "comment" "Uploaded from Binary Ninja"
    host := ← (req.get? "host").bind Json.getAsString
    port := ← (req.get? "port").bind Json.getAsInt
    user := ← (req.get? "user").bind Json.getAsString
    password := ← req.getStr "password" ""
    analysisJson := ← req.getStr "analysis_json" "" }, keepCheckout)

/-- The checkout that is kept, or -1 for one that was refused. -/
def uploadReply (co : Option ListedCheckout) : List (String × Json) :=
  [("checkout_id", int64Json ((co.map ListedCheckout.checkoutId).getD (-1)))]

/-- Keeping a checkout opens the repository. -/
def opUploadBinary (bridgeProjectPath : String) : Answer × BridgeState :=
  match readUpload req with
  | none => (.error Json.typeError, s)
  | some (upload, keepCheckout) =>
    match server.upload upload with
    | .error what => (.error what, s)
    | .ok () =>
      if keepCheckout then
        match s.openRepo upload.place.repo (server.getRepository upload.place.repo) with
        | (.error what, next) => (.error what, next)
        | (.ok (), opened) =>
          match opened.getRepo upload.place.repo with
          | .error what => (.error what, opened)
          | .ok _ => ((server.checkout upload.place .normal bridgeProjectPath).map uploadReply, opened)
      else (.ok (uploadReply none), s)

/-- All versions of the item go. -/
def opDeleteItem : Answer × BridgeState :=
  match readItem req with
  | none => (.error Json.typeError, s)
  | some place =>
    match s.openRepo place.repo (server.getRepository place.repo) with
    | (.error what, next) => (.error what, next)
    | (.ok (), opened) =>
      match opened.getRepo place.repo with
      | .error what => (.error what, opened)
      | .ok _ => ((server.deleteItem place (-1)).map fun _ => [], opened)

end

/-! ## Dispatch -/

section
variable (bridgeProjectPath : String)

/-- The handler of an op. -/
def handleOp (id : Int32) (s : BridgeState) (req : Json) (server : ServerAnswers) (op : String) : Handled :=
  match op with
  | "ping" => answered id (.ok [], s)
  | "connect" => answered id (s.opConnect req server.connect)
  | "disconnect" => answered id s.opDisconnect
  | "status" => answered id (opStatus s)
  | "list_repos" => answered id (opListRepos s server)
  | "open_repo" => answered id (s.opOpenRepo req (namedRepository req server))
  | "close_repo" => answered id (s.opCloseRepo req)
  | "list_items" => answered id (opListItems s req server)
  | "get_subfolders" => answered id (opGetSubfolders s req server)
  | "checkout" => answered id (opCheckout s req server bridgeProjectPath)
  | "terminate_checkout" => answered id (opTerminateCheckout s req server)
  | "get_versions" => answered id (opGetVersions s req server)
  | "get_checkouts" => answered id (opGetCheckouts s req server)
  | "open_db" => answered id (s.opOpenDb req (namedRepository req server) (exportedDb req server))
  | "checkin" => answered id (opCheckin s req server bridgeProjectPath)
  | "download_binary" => opDownloadBinary s req server id
  | "upload_binary" => answered id (opUploadBinary s req server bridgeProjectPath)
  | "delete_item" => answered id (opDeleteItem s req server)
  | other => { session := s, written := [respondError id ("unknown op: " ++ other)] }

/-- The id of a request, -1 without one. -/
def readRequestId (req : Json) : Option Int32 :=
  match req.get? "id" with
  | none => some (-1)
  | some member => member.getAsInt

/-- What a line does before its exception is caught, under the id it could be read by.
A line that is no object is `none`. -/
def tryRequest (s : BridgeState) (line : Option Json) (server : ServerAnswers) : Int32 × Handled :=
  match line with
  | none => (-1, { session := s, thrown := some Json.typeError })
  | some req =>
    match readRequestId req with
    | none => (-1, { session := s, thrown := some Json.typeError })
    | some id =>
      match (req.get? "op").bind Json.getAsString with
      | none => (id, { session := s, thrown := some Json.typeError })
      | some op => (id, handleOp bridgeProjectPath id s req server op)

/-- `handleRequest`: the session and the lines written. -/
def handleRequest (s : BridgeState) (line : Option Json) (server : ServerAnswers) : BridgeState × List Json :=
  let tried := tryRequest bridgeProjectPath s line server
  (tried.2.session, tried.2.written ++ (tried.2.thrown.map (respondError tried.1)).toList)

/-- The loop of `run` over lines that are not blank, with the lines written for each. -/
def serve (s : BridgeState) : List (Option Json × ServerAnswers) → BridgeState × List (List Json)
  | [] => (s, [])
  | (line, server) :: rest =>
    let handled := handleRequest bridgeProjectPath s line server
    let later := serve handled.1 rest
    (later.1, handled.2 :: later.2)

end

/-! ## One answer to each line -/

/-- The id a line is answered under: its own, or -1 for one it cannot be read by. -/
def lineId (line : Option Json) : Int32 := (line.map requestId).getD (-1)

/-- A response under an id, which no client takes for an event. -/
structure Answers (id : Int32) (answer : Json) : Prop where
  id : answer.get? "id" = some (int32Json id)
  ok : ∃ ok, answer.get? "ok" = some (.bool ok)
  event : answer.contains "event" = false

/-- The members of an answer do not make it an event. -/
def Quiet (answer : Answer) : Prop := ∀ extra, answer = .ok extra → extra.lookup "event" = none

theorem lookup_dropNullsOfFields {fields : List (String × Json)} {key : String} (missing : fields.lookup key = none) :
    (Json.dropNullsOfFields fields).lookup key = none := by
  induction fields with
  | nil => exact missing
  | cons field rest ih =>
    obtain ⟨name, member⟩ := field
    rw [List.lookup_cons] at missing
    split at missing
    · cases missing
    · rename_i other
      cases member with
      | null => exact ih missing
      | bool | int | float | str | arr | obj =>
        rw [Json.dropNullsOfFields, List.lookup_cons, other]
        · exact ih missing
        · intro null
          cases null

theorem respondError_answers (id : Int32) (what : String) : Answers id (respondError id what) :=
  ⟨rfl, ⟨false, rfl⟩, rfl⟩

theorem respondOk_answers (id : Int32) {extra : List (String × Json)} (quiet : extra.lookup "event" = none) :
    Answers id (respondOk id extra) := by
  refine ⟨rfl, ⟨true, rfl⟩, ?_⟩
  have gone : (Json.dropNullsOfFields extra).lookup "event" = none := lookup_dropNullsOfFields quiet
  have same : (respondOk id extra).get? "event" = (Json.dropNullsOfFields extra).lookup "event" := rfl
  rw [Json.contains, same, gone]
  rfl

/-- How many lines a handler leads to, with the one its exception becomes. -/
def linesOf (handled : Handled) : Nat := handled.written.length + handled.thrown.toList.length

/-- What a handler has written answers its request, and it leads to one line, or to
two where it may. -/
structure Speaks (id : Int32) (twice : Prop) (handled : Handled) : Prop where
  written : ∀ answer ∈ handled.written, Answers id answer
  lines : linesOf handled = 1 ∨ twice ∧ linesOf handled = 2

theorem answered_speaks (id : Int32) {twice : Prop} {done : Answer × BridgeState} (quiet : Quiet done.1) :
    Speaks id twice (answered id done) := by
  obtain ⟨answer, next⟩ := done
  cases answer with
  | error what => exact ⟨nofun, .inl rfl⟩
  | ok extra =>
    refine ⟨fun answer member => ?_, .inl rfl⟩
    cases List.mem_singleton.mp member
    exact respondOk_answers id (quiet extra rfl)

theorem quiet_map {result : Except String A} {members : A → List (String × Json)}
    (quiet : ∀ a, (members a).lookup "event" = none) : Quiet (result.map members) := by
  intro extra mapped
  cases result with
  | error what => cases mapped
  | ok a =>
    cases mapped
    exact quiet a

theorem quiet_ok {extra : List (String × Json)} (quiet : extra.lookup "event" = none) : Quiet (.ok extra) := by
  rintro _ ⟨⟩
  exact quiet

section
variable {s : BridgeState} {req : Json} {server : ServerAnswers}

theorem asking_quiet {read : Option A} {repo : A → String} {ask : A → Except String (List (String × Json))}
    (quiet : ∀ a, Quiet (ask a)) : Quiet (asking s read repo ask).1 := by
  unfold asking
  dsimp only
  split
  · exact nofun
  · split
    · exact nofun
    · exact quiet _

theorem opConnect_quiet : Quiet (s.opConnect req server.connect).1 := by
  unfold BridgeState.opConnect
  split
  · exact nofun
  · split
    · exact nofun
    · exact quiet_ok rfl

theorem opOpenRepo_quiet : Quiet (s.opOpenRepo req (namedRepository req server)).1 := by
  unfold BridgeState.opOpenRepo
  split
  · exact nofun
  · split
    · exact nofun
    · split
      · exact nofun
      · exact quiet_ok rfl

theorem opCloseRepo_quiet : Quiet (s.opCloseRepo req).1 := by
  unfold BridgeState.opCloseRepo
  split
  · exact nofun
  · exact quiet_ok rfl

theorem openDbData_quiet (dbData : List (String × Json)) : (openDbData dbData).lookup "event" = none := by
  refine List.lookup_eq_none_iff.mpr fun member copied => ?_
  obtain ⟨key, named, found⟩ := List.mem_filterMap.mp copied
  obtain ⟨value, -, rfl⟩ := Option.map_eq_some_iff.mp found
  have other : key ≠ "event" := by
    rintro rfl
    simp at named
  simpa using other.symm

theorem opOpenDb_quiet : Quiet (s.opOpenDb req (namedRepository req server) (exportedDb req server)).1 := by
  unfold BridgeState.opOpenDb exportedDb
  split
  · exact nofun
  · split
    · exact nofun
    · split
      · exact nofun
      · exact quiet_map openDbData_quiet

theorem opListRepos_quiet : Quiet (opListRepos s server).1 := by
  unfold opListRepos
  dsimp only
  split
  · exact nofun
  · exact quiet_map fun _ => rfl

theorem opCheckout_quiet (bridgeProjectPath : String) : Quiet (opCheckout s req server bridgeProjectPath).1 := by
  unfold opCheckout
  dsimp only
  split
  · exact nofun
  · split
    · exact nofun
    · split
      · exact nofun
      · split
        · exact nofun
        · exact nofun
        · exact quiet_ok rfl

theorem checkinReply_quiet (request : CheckinRequest) (applyResult : Json) :
    (BridgeConnection.checkinReply request applyResult).lookup "event" = none := by
  unfold BridgeConnection.checkinReply
  split <;> rfl

theorem opCheckin_quiet (bridgeProjectPath : String) : Quiet (opCheckin s req server bridgeProjectPath).1 := by
  unfold opCheckin BridgeConnection.opCheckin
  dsimp only
  split
  · exact nofun
  · split
    · exact nofun
    · split
      · exact nofun
      · split
        · exact nofun
        · split
          · exact nofun
          · exact quiet_ok (checkinReply_quiet _ _)

theorem opUploadBinary_quiet (bridgeProjectPath : String) :
    Quiet (opUploadBinary s req server bridgeProjectPath).1 := by
  unfold opUploadBinary
  split
  · exact nofun
  · split
    · exact nofun
    · split
      · split
        · exact nofun
        · split
          · exact nofun
          · exact quiet_map fun _ => rfl
      · exact quiet_ok rfl

theorem opDeleteItem_quiet : Quiet (opDeleteItem s req server).1 := by
  unfold opDeleteItem
  split
  · exact nofun
  · split
    · exact nofun
    · split
      · exact nofun
      · exact quiet_map fun _ => rfl

/-- The database did not close. -/
def CloseFails (server : ServerAnswers) : Prop := ∃ what, server.close = .error what

/-- A database that does not close adds a second line to that of the files. -/
theorem opDownloadBinary_speaks (id : Int32) :
    Speaks id (CloseFails server) (opDownloadBinary s req server id) := by
  unfold opDownloadBinary
  split
  · exact ⟨nofun, .inl rfl⟩
  · split
    · exact ⟨nofun, .inl rfl⟩
    · rename_i place version _ _ _ _
      have quiet : Quiet ((server.extract place version).map fun files => [("files", .arr (files.map fileToJson))]) :=
        quiet_map fun _ => rfl
      generalize (server.extract place version).map (fun files => [("files", Json.arr (files.map fileToJson))]) =
        answer at quiet ⊢
      have read : Speaks id (CloseFails server) (answered id (answer, s)) := answered_speaks id quiet
      dsimp only
      split
      · exact read
      · rename_i what failed
        cases answer with
        | error _ => exact ⟨nofun, .inl rfl⟩
        | ok extra => exact ⟨read.written, .inr ⟨⟨what, failed⟩, rfl⟩⟩

theorem handleOp_speaks (bridgeProjectPath : String) (id : Int32) (op : String) :
    Speaks id (op = "download_binary" ∧ CloseFails server)
      (handleOp bridgeProjectPath id s req server op) := by
  unfold handleOp
  split
  · exact answered_speaks id (quiet_ok rfl)
  · exact answered_speaks id opConnect_quiet
  · exact answered_speaks id (quiet_ok rfl)
  · exact answered_speaks id (quiet_ok rfl)
  · exact answered_speaks id opListRepos_quiet
  · exact answered_speaks id opOpenRepo_quiet
  · exact answered_speaks id opCloseRepo_quiet
  · exact answered_speaks id (asking_quiet fun _ => quiet_map fun _ => rfl)
  · exact answered_speaks id (asking_quiet fun _ => quiet_map fun _ => rfl)
  · exact answered_speaks id (opCheckout_quiet bridgeProjectPath)
  · exact answered_speaks id (asking_quiet fun _ => quiet_map fun _ => rfl)
  · exact answered_speaks id (asking_quiet fun _ => quiet_map fun _ => rfl)
  · exact answered_speaks id (asking_quiet fun _ => quiet_map fun _ => rfl)
  · exact answered_speaks id opOpenDb_quiet
  · exact answered_speaks id (opCheckin_quiet bridgeProjectPath)
  · have speaks := @opDownloadBinary_speaks s req server id
    exact ⟨speaks.written, speaks.lines.imp_right fun twice => ⟨⟨rfl, twice.1⟩, twice.2⟩⟩
  · exact answered_speaks id (opUploadBinary_quiet bridgeProjectPath)
  · exact answered_speaks id opDeleteItem_quiet
  · refine ⟨fun answer member => ?_, .inl rfl⟩
    cases List.mem_singleton.mp member
    exact respondError_answers id _

end

/-! ## The whole loop -/

/-- The op a line asks for. -/
def lineOp (line : Option Json) : Option String := line.bind fun req => (req.get? "op").bind Json.getAsString

/-- A line gets one answer under its id, or two where it downloads from a database that
does not close. -/
structure Worked (line : Option Json) (server : ServerAnswers) (written : List Json) : Prop where
  answers : ∀ answer ∈ written, Answers (lineId line) answer
  count : written.length = 1 ∨
    (lineOp line = some "download_binary" ∧ CloseFails server) ∧ written.length = 2

variable {bridgeProjectPath : String} {server : ServerAnswers} {s : BridgeState} {line : Option Json}

theorem requestId_eq (req : Json) : requestId req = (readRequestId req).getD (-1) := by
  unfold requestId readRequestId
  cases req.get? "id" <;> rfl

theorem tryRequest_id : (tryRequest bridgeProjectPath s line server).1 = lineId line := by
  cases line with
  | none => rfl
  | some req =>
    unfold tryRequest lineId
    rw [Option.map_some, Option.getD_some, requestId_eq]
    dsimp only
    cases readRequestId req with
    | none => rfl
    | some id => cases (req.get? "op").bind Json.getAsString <;> rfl

theorem tryRequest_speaks :
    Speaks (lineId line) (lineOp line = some "download_binary" ∧ CloseFails server)
      (tryRequest bridgeProjectPath s line server).2 := by
  have own := @tryRequest_id bridgeProjectPath server s line
  rw [← own]
  clear own
  unfold tryRequest
  split
  · exact ⟨nofun, .inl rfl⟩
  · rename_i req
    split
    · exact ⟨nofun, .inl rfl⟩
    · rename_i id _
      cases asked : (req.get? "op").bind Json.getAsString with
      | none => exact ⟨nofun, .inl rfl⟩
      | some op =>
        have speaks := @handleOp_speaks s req server bridgeProjectPath id op
        refine ⟨speaks.written, speaks.lines.imp_right fun twice => ⟨⟨?_, twice.1.2⟩, twice.2⟩⟩
        rw [lineOp, Option.bind_some, asked, twice.1.1]

theorem handleRequest_worked : Worked line server (handleRequest bridgeProjectPath s line server).2 := by
  have speaks := @tryRequest_speaks bridgeProjectPath server s line
  unfold handleRequest
  refine ⟨fun answer member => ?_, ?_⟩
  · rcases List.mem_append.mp member with written | thrown
    · exact speaks.written answer written
    · obtain ⟨what, -, rfl⟩ := Option.map_eq_some_iff.mp (Option.mem_toList.mp thrown)
      rw [tryRequest_id]
      exact respondError_answers _ what
  · have counted := speaks.lines
    rw [linesOf] at counted
    simpa only [List.length_append, Option.length_toList, Option.isSome_map] using counted

/-- Whatever lines come in and whatever the server answers to each, the loop goes on to
the end and writes for each line in turn an answer under the line's own id that no
client takes for an event. -/
theorem every_line_answered (bridgeProjectPath : String) (s : BridgeState)
    (lines : List (Option Json × ServerAnswers)) :
    List.Forall₂ (fun line written => Worked line.1 line.2 written) lines (serve bridgeProjectPath s lines).2 := by
  induction lines generalizing s with
  | nil => exact .nil
  | cons line rest ih => exact .cons handleRequest_worked (ih _)

end RequestLoop
end GhidraBridge
