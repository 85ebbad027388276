import GhidraBridge.RequestLoop
import GhidraBridge.ImportRoundTrip

/-! The plugin's calls for repositories, folders, items, versions and checkouts
(`GhidraConnection.cpp`). A call is a request that the bridge works off and a reply that
the plugin reads; between the two it gives what the session behind the bridge answers
when it is asked directly, an exception of the server included. -/
namespace GhidraBridge.ServerCalls
open Lib BridgeState RequestLoop SessionAgreement
open DbExportJson (eachOf textOf)

structure RepoItem where
  name : String
  parentPath : String
  path : String
  fileId : String
  itemType : Int32
  contentType : String
  version : Int32
  versionTime : Int64
  deriving DecidableEq

structure CheckoutInfo where
  id : Int64
  type : String
  user : String
  version : Int32
  time : Int64
  projectPath : String
  deriving DecidableEq

structure VersionInfo where
  version : Int32
  time : Int64
  user : String
  comment : String
  deriving DecidableEq

/-- A file, its bytes as the text they came as. -/
structure BinaryFile where
  filename : String
  data : String
  deriving DecidableEq

/-- The connection object of the plugin: whether it is connected, and the server and the
user it was connected as. -/
structure Connection where
  isBridgeConnected : Bool
  serverConnected : Bool
  host : String
  port : Int32
  user : String
  password : String

/-- A call of the plugin: the error it gives without sending anything, its request, what
the plugin makes of the reply, and what the session and the server answer when they are
asked without a bridge in between. -/
structure Remote (A : Type) where
  refuses : Option String := none
  request : Json
  read : Json → Except String A
  asked : BridgeState → ServerAnswers → Except String A × BridgeState

/-! ## The replies -/

def intOf (j : Json) (key : String) (dflt : Int32) : Except String Int32 := j.valueOr key Json.getInt32 dflt

def longOf (j : Json) (key : String) : Except String Int64 := j.valueOr key Json.getInt64 0

def itemFromJson (j : Json) : Except String RepoItem := do
  return {
    name := ← textOf j "name"
    parentPath := ← textOf j "parent_path"
    path := ← textOf j "path"
    fileId := ← textOf j "file_id"
    itemType := ← intOf j "item_type" 0
    contentType := ← textOf j "content_type"
    version := ← intOf j "version" (-1)
    versionTime := ← longOf j "version_time" }

def checkoutFromJson (j : Json) : Except String CheckoutInfo := do
  return {
    id := ← longOf j "id"
    type := ← textOf j "type"
    user := ← textOf j "user"
    version := ← intOf j "version" (-1)
    time := ← longOf j "time"
    projectPath := ← textOf j "project_path" }

def versionFromJson (j : Json) : Except String VersionInfo := do
  return {
    version := ← intOf j "version" (-1)
    time := ← longOf j "time"
    user := ← textOf j "user"
    comment := ← textOf j "comment" }

def fileFromJson (j : Json) : Except String BinaryFile := do
  return { filename := ← textOf j "filename", data := ← textOf j "data" }

/-- A reply that is not ok is the error it carries. -/
def readReply (dflt : String) (read : Json → Except String A) (resp : Json) : Except String A := do
  if ← resp.valueOr "ok" Json.getBool false then read resp
  else throw (← resp.valueOr "error" Json.getString dflt)

/-! ## The session asked directly -/

/-- An item as the plugin shows it: what the server does not know is empty. -/
def shownItem (item : RepositoryItem) : RepoItem where
  name := item.name.getD ""
  parentPath := item.parentPath.getD ""
  path := item.pathName.getD ""
  fileId := item.fileID.getD ""
  itemType := item.itemType
  contentType := item.contentType.getD ""
  version := item.version
  versionTime := item.versionTime

def shownCheckout (co : ListedCheckout) : CheckoutInfo where
  id := co.checkoutId
  type := checkoutTypeName co.status.checkoutType
  user := co.status.user
  version := co.status.checkoutVersion
  time := co.checkoutTime
  projectPath := co.status.projectPath.getD ""

def shownVersion (v : Version) : VersionInfo where
  version := v.version
  time := v.createTime
  user := v.user.getD ""
  comment := v.comment.getD ""

def shownFile (ef : ExtractedFile) : BinaryFile where
  filename := ef.filename.getD ""
  data := ef.data

/-- Opens a repository and goes on with it. -/
def opening (s : BridgeState) (server : ServerAnswers) (repo : String)
    (next : BridgeState → Except String A × BridgeState) : Except String A × BridgeState :=
  match s.openRepo repo (server.getRepository repo) with
  | (.error what, kept) => (.error what, kept)
  | (.ok (), opened) => next opened

/-- Asks a repository that is open. -/
def inRepo (s : BridgeState) (repo : String) (answer : Except String A) : Except String A :=
  (s.getRepo repo).bind fun _ => answer

/-! ## The calls -/

def onFolder (op repo folder : String) : List (String × Json) :=
  [("op", .str op), ("repo", .str repo), ("folder", .str folder)]

def onItem (op repo folder item : String) : List (String × Json) := onFolder op repo folder ++ [("item", .str item)]

def listRepos : Remote (List String) where
  request := .obj [("op", .str "list_repos")]
  read := readReply "list_repos failed" fun resp => eachOf resp "repos" Json.getString
  asked s server := (s.requireConnected.bind fun _ => server.getRepositoryNames, s)

def openRepo (repo : String) : Remote Unit where
  request := .obj [("op", .str "open_repo"), ("repo", .str repo)]
  read := readReply "open_repo failed" fun _ => .ok ()
  asked s server := opening s server repo fun opened => opened.startStreamer repo

/-- What comes of it is not looked at. -/
def closeRepo (repo : String) : Remote Unit where
  request := .obj [("op", .str "close_repo"), ("repo", .str repo)]
  read _ := .ok ()
  asked s _ := (.ok (), (s.stopStreamer repo).closeRepo repo)

section
variable (repo folder item : String)

def listItems : Remote (List RepoItem) where
  request := .obj (onFolder "list_items" repo folder)
  read := readReply "" fun resp => eachOf resp "items" itemFromJson
  asked s server := (inRepo s repo ((server.getItemList repo folder).map fun items => (items.getD []).map shownItem), s)

def getSubfolders : Remote (List String) where
  request := .obj (onFolder "get_subfolders" repo folder)
  read := readReply "" fun resp => eachOf resp "subfolders" Json.getString
  asked s server := (inRepo s repo ((server.getSubfolderList repo folder).map fun subs => subs.getD []), s)

def getVersions : Remote (List VersionInfo) where
  request := .obj (onItem "get_versions" repo folder item)
  read := readReply "" fun resp => eachOf resp "versions" versionFromJson
  asked s server :=
    (inRepo s repo ((walked (server.getVersions ⟨repo, folder, item⟩)).map fun all => all.map shownVersion), s)

def getCheckouts : Remote (List CheckoutInfo) where
  request := .obj (onItem "get_checkouts" repo folder item)
  read := readReply "" fun resp => eachOf resp "checkouts" checkoutFromJson
  asked s server :=
    (inRepo s repo ((walked (server.getCheckouts ⟨repo, folder, item⟩)).map fun all => all.map shownCheckout), s)

def checkout (bridgeProjectPath checkoutType : String) : Remote CheckoutInfo where
  request := .obj (onItem "checkout" repo folder item ++ [("type", .str checkoutType)])
  read := readReply "" fun resp => checkoutFromJson ((resp.get? "checkout").getD .null)
  asked s server :=
    (match checkoutTypeOf checkoutType with
    | none => .error ("No enum constant ghidra.framework.store.CheckoutType." ++ checkoutType.toUpper)
    | some type =>
      inRepo s repo ((server.checkout ⟨repo, folder, item⟩ type bridgeProjectPath).bind fun co =>
        co.elim (.error nullPointer) fun co => .ok (shownCheckout co)), s)

def terminateCheckout (checkoutId : Int64) : Remote Unit where
  request := .obj (onItem "terminate_checkout" repo folder item ++ [("checkout_id", int64Json checkoutId)])
  read := readReply "" fun _ => .ok ()
  asked s server := (inRepo s repo (server.terminateCheckout ⟨repo, folder, item⟩ checkoutId), s)

def deleteItem : Remote Unit where
  request := .obj (onItem "delete_item" repo folder item)
  read := readReply "" fun _ => .ok ()
  asked s server :=
    opening s server repo fun opened => (inRepo opened repo (server.deleteItem ⟨repo, folder, item⟩ (-1)), opened)

/-- What `finally` throws takes the place of what was thrown before, but not of a reply
that was written. -/
def downloadBinary (version : Int32) : Remote (List BinaryFile) where
  request := .obj (onItem "download_binary" repo folder item ++ [("version", int32Json version)])
  read := readReply "download_binary failed" fun resp => eachOf resp "files" fileFromJson
  asked s server :=
    (inRepo s repo (match server.extract ⟨repo, folder, item⟩ version with
      | .ok files => .ok (files.map shownFile)
      | .error what => .error (match server.close with
        | .ok () => what
        | .error other => other)), s)

/-- What an upload asks of a connection before it sends anything. -/
def uploadRefused (connection : Connection) (data : String) : Option String :=
  if !connection.isBridgeConnected then some "Bridge not connected"
  else if !connection.serverConnected then some "Not connected to server"
  else if data = "" then some "Binary data is empty"
  else none

def uploadBinary (bridgeProjectPath data comment : String) (keepCheckout : Bool) (analysisJson : String)
    (connection : Connection) : Remote Unit where
  refuses := uploadRefused connection data
  request :=
    .obj (onItem "upload_binary" repo folder item ++ [("data", .str data), ("comment", .str comment),
      ("keep_checkout", .bool keepCheckout), ("host", .str connection.host), ("port", int32Json connection.port),
      ("user", .str connection.user), ("password", .str connection.password), ("analysis_json", .str analysisJson)])
  read := readReply "upload_binary failed" fun _ => .ok ()
  asked s server :=
    match server.upload ⟨⟨repo, folder, item⟩, data, comment, connection.host, connection.port, connection.user,
      connection.password, analysisJson⟩ with
    | .error what => (.error what, s)
    | .ok () =>
      if keepCheckout then
        opening s server repo fun opened =>
          (inRepo opened repo ((server.checkout ⟨repo, folder, item⟩ .normal bridgeProjectPath).map fun _ => ()),
            opened)
      else (.ok (), s)

end

/-- Any of the calls. -/
inductive ServerCall where
  | listRepos
  | openRepo (repo : String)
  | closeRepo (repo : String)
  | listItems (repo folder : String)
  | getSubfolders (repo folder : String)
  | getVersions (repo folder item : String)
  | getCheckouts (repo folder item : String)
  | checkout (repo folder item checkoutType : String)
  | terminateCheckout (repo folder item : String) (checkoutId : Int64)
  | deleteItem (repo folder item : String)
  | downloadBinary (repo folder item : String) (version : Int32)
  | uploadBinary (repo folder item data comment : String) (keepCheckout : Bool) (analysisJson : String)
      (connection : Connection)

/-- What a call returns. -/
def ServerCall.Result : ServerCall → Type
  | .listRepos | .getSubfolders .. => List String
  | .listItems .. => List RepoItem
  | .getVersions .. => List VersionInfo
  | .getCheckouts .. => List CheckoutInfo
  | .checkout .. => CheckoutInfo
  | .downloadBinary .. => List BinaryFile
  | .openRepo .. | .closeRepo .. | .terminateCheckout .. | .deleteItem .. | .uploadBinary .. => Unit

def ServerCall.remote (bridgeProjectPath : String) : (call : ServerCall) → Remote call.Result
  | .listRepos => ServerCalls.listRepos
  | .openRepo repo => ServerCalls.openRepo repo
  | .closeRepo repo => ServerCalls.closeRepo repo
  | .listItems repo folder => ServerCalls.listItems repo folder
  | .getSubfolders repo folder => ServerCalls.getSubfolders repo folder
  | .getVersions repo folder item => ServerCalls.getVersions repo folder item
  | .getCheckouts repo folder item => ServerCalls.getCheckouts repo folder item
  | .checkout repo folder item checkoutType => ServerCalls.checkout repo folder item bridgeProjectPath checkoutType
  | .terminateCheckout repo folder item checkoutId => ServerCalls.terminateCheckout repo folder item checkoutId
  | .deleteItem repo folder item => ServerCalls.deleteItem repo folder item
  | .downloadBinary repo folder item version => ServerCalls.downloadBinary repo folder item version
  | .uploadBinary repo folder item data comment keepCheckout analysisJson connection =>
    ServerCalls.uploadBinary repo folder item bridgeProjectPath data comment keepCheckout analysisJson connection

/-! ## Records on their way -/

section Members
variable {fields : List (String × Json)} {key : String}

/-- A member that is not null stays, without its own nulls. -/
theorem lookup_kept {member : Json} (held : fields.lookup key = some member) (some_ : member ≠ .null) :
    (Json.dropNullsOfFields fields).lookup key = some member.dropNulls := by
  induction fields with
  | nil => cases held
  | cons field rest ih =>
    obtain ⟨name, own⟩ := field
    rw [List.lookup_cons] at held
    cases same : key == name with
    | true =>
      rw [same] at held
      cases held
      cases member with
      | null => exact absurd rfl some_
      | bool | int | float | str | arr | obj =>
        rw [Json.dropNullsOfFields, List.lookup_cons, same]
        rintro ⟨⟩
    | false =>
      rw [same] at held
      cases own with
      | null => exact ih held
      | bool | int | float | str | arr | obj =>
        rw [Json.dropNullsOfFields, List.lookup_cons, same]
        · exact ih held
        · rintro ⟨⟩

/-- A null member goes, where no other member has its key. -/
theorem lookup_null (once : (fields.map Prod.fst).Nodup) (held : fields.lookup key = some .null) :
    (Json.dropNullsOfFields fields).lookup key = none := by
  induction fields with
  | nil => cases held
  | cons field rest ih =>
    obtain ⟨name, own⟩ := field
    obtain ⟨new, others⟩ := List.nodup_cons.mp once
    rw [List.lookup_cons] at held
    cases same : key == name with
    | true =>
      rw [same] at held
      cases held
      have gone : rest.lookup key = none := by
        refine List.lookup_eq_none_iff.mpr fun other there => ?_
        have taken : key = name := by simpa using same
        simpa [taken] using fun same : name = other.1 => new (List.mem_map.mpr ⟨other, there, same.symm⟩)
      show (Json.dropNullsOfFields rest).lookup key = none
      exact RequestLoop.lookup_dropNullsOfFields gone
    | false =>
      rw [same] at held
      cases own with
      | null => exact ih others held
      | bool | int | float | str | arr | obj =>
        rw [Json.dropNullsOfFields, List.lookup_cons, same]
        · exact ih others held
        · rintro ⟨⟩

theorem text_shown {text : Option String} (once : (fields.map Prod.fst).Nodup)
    (held : fields.lookup key = some (DatabaseExporter.textJson text)) :
    textOf (.obj (Json.dropNullsOfFields fields)) key = .ok (text.getD "") := by
  cases text with
  | none => exact ImportRoundTrip.valueOr_missing (lookup_null once held)
  | some text => exact ImportRoundTrip.text_reads (lookup_kept held nofun)

theorem plain_shown {text : String} (held : fields.lookup key = some (.str text)) :
    textOf (.obj (Json.dropNullsOfFields fields)) key = .ok text :=
  ImportRoundTrip.text_reads (lookup_kept held nofun)

theorem int_shown {value dflt : Int32} (held : fields.lookup key = some (int32Json value)) :
    intOf (.obj (Json.dropNullsOfFields fields)) key dflt = .ok value := by
  rw [intOf, ImportRoundTrip.valueOr_held (lookup_kept held nofun)]
  show Except.ok (Int64.ofInt value.toInt).toInt32 = _
  rw [Int64.ofInt_int32ToInt, Int32.toInt32_toInt64]

theorem long_shown {value : Int64} (held : fields.lookup key = some (int64Json value)) :
    longOf (.obj (Json.dropNullsOfFields fields)) key = .ok value :=
  ImportRoundTrip.long_reads (lookup_kept held nofun)

/-- An array of records, each of which is read as it is shown. -/
theorem each_shown {read : Json → Except String B} {items : List A} {json : A → Json} {shown : A → B}
    (held : fields.lookup key = some (.arr (items.map json)))
    (reads : ∀ item, read (json item).dropNulls = .ok (shown item)) :
    eachOf (.obj (Json.dropNullsOfFields fields)) key read = .ok (items.map shown) := by
  have kept := lookup_kept held nofun
  have items_ (all : List A) :
      Json.dropNullsOfItems (all.map json) = all.map fun item => (json item).dropNulls := by
    induction all with
    | nil => rfl
    | cons item rest ih => rw [List.map_cons, Json.dropNullsOfItems, ih, List.map_cons]
  rw [Json.dropNulls, items_] at kept
  exact ImportRoundTrip.each_reads kept fun item _ => reads item

end Members

theorem item_shown (item : RepositoryItem) : itemFromJson (itemToJson item).dropNulls = .ok (shownItem item) := by
  let fields : List (String × Json) :=
    [("name", DatabaseExporter.textJson item.name), ("parent_path", DatabaseExporter.textJson item.parentPath),
      ("path", DatabaseExporter.textJson item.pathName), ("file_id", DatabaseExporter.textJson item.fileID),
      ("item_type", int32Json item.itemType), ("content_type", DatabaseExporter.textJson item.contentType),
      ("version", int32Json item.version), ("version_time", int64Json item.versionTime)] ++
      (item.textData.map fun text => ("text_data", Json.str text)).toList
  have once : (fields.map Prod.fst).Nodup := by
    have names : fields.map Prod.fst =
        ["name", "parent_path", "path", "file_id", "item_type", "content_type", "version", "version_time"] ++
          (item.textData.map fun _ => "text_data").toList := by
      cases text : item.textData <;> simp [fields, text]
    rw [names]
    cases item.textData <;> simp
  rw [itemToJson, Json.dropNulls, itemFromJson, text_shown once rfl, text_shown once rfl, text_shown once rfl,
    text_shown once rfl, int_shown rfl, text_shown once rfl, int_shown rfl, long_shown rfl]
  rfl

theorem checkout_shown (co : ListedCheckout) :
    checkoutFromJson (checkoutToJson co).dropNulls = .ok (shownCheckout co) := by
  rw [checkoutToJson, Json.dropNulls, checkoutFromJson, long_shown rfl, plain_shown rfl, plain_shown rfl,
    int_shown rfl, long_shown rfl, text_shown (by simp) rfl]
  rfl

theorem version_shown (v : Version) : versionFromJson (versionToJson v).dropNulls = .ok (shownVersion v) := by
  rw [versionToJson, Json.dropNulls, versionFromJson, int_shown rfl, long_shown rfl, text_shown (by simp) rfl,
    text_shown (by simp) rfl]
  rfl

theorem file_shown (ef : ExtractedFile) : fileFromJson (fileToJson ef).dropNulls = .ok (shownFile ef) := by
  rw [fileToJson, Json.dropNulls, fileFromJson, text_shown (by simp) rfl, plain_shown rfl]
  rfl

/-! ## A call and its reply -/

section
variable {bridgeProjectPath : String} {id : Int32} {s : BridgeState} {server : ServerAnswers}

theorem readRequestId_stamp (req : Json) : readRequestId (stamp id req) = some id := by
  have member : (stamp id req).get? "id" = some (int32Json id) := rfl
  rw [readRequestId, member]
  exact Json.getAsInt_toInt id

/-- An op whose handler answers at its end leads to one line. -/
theorem handleRequest_answered {req : Json} {op : String} {done : Answer × BridgeState}
    (asks : ((stamp id req).get? "op").bind Json.getAsString = some op)
    (handles : handleOp bridgeProjectPath id s (stamp id req) server op = answered id done) :
    handleRequest bridgeProjectPath s (some (stamp id req)) server = (done.2, [respond id done.1]) := by
  have tried : tryRequest bridgeProjectPath s (some (stamp id req)) server = (id, answered id done) := by
    simp only [tryRequest, readRequestId_stamp, asks, handles]
  rw [handleRequest, tried]
  obtain ⟨answer, next⟩ := done
  cases answer <;> rfl

/-- The reply to an answer is read as the answer, the one to an exception as its text. -/
theorem readReply_respond {dflt : String} {read : Json → Except String A} (answer : Answer) :
    readReply dflt read (respond id answer) = answer.bind fun extra => read (respondOk id extra) := by
  cases answer with
  | error what => rfl
  | ok extra =>
    have held : (("id", Json.int id.toInt) :: ("ok", .bool true) :: extra).lookup "ok" = some (.bool true) := rfl
    have ok : (respondOk id extra).valueOr "ok" Json.getBool false = .ok true :=
      ImportRoundTrip.valueOr_held (lookup_kept held nofun)
    rw [readReply, respond, ok]
    rfl

/-- A member of an answer, as the reply holds it. -/
theorem lookup_reply {extra : List (String × Json)} {key : String} (other : key ≠ "id" ∧ key ≠ "ok") :
    (("id", Json.int id.toInt) :: ("ok", .bool true) :: extra).lookup key = extra.lookup key := by
  have notId : (key == "id") = false := by simpa using other.1
  have notOk : (key == "ok") = false := by simpa using other.2
  rw [List.lookup_cons, notId]
  dsimp only
  rw [List.lookup_cons, notOk]

/-- An answer with the records of a list is read as the list of what they show. -/
theorem readReply_list {dflt key : String} {read : Json → Except String B} {listed : Except String (List A)}
    {json : A → Json} {shown : A → B} {more : List A → List (String × Json)}
    (reads : ∀ item, read (json item).dropNulls = .ok (shown item)) (other : key ≠ "id" ∧ key ≠ "ok") :
    readReply dflt (fun resp => eachOf resp key read)
        (respond id (listed.map fun items => (key, .arr (items.map json)) :: more items)) =
      listed.map fun items => items.map shown := by
  rw [readReply_respond]
  cases listed with
  | error what => rfl
  | ok items => exact each_shown ((lookup_reply other).trans List.lookup_cons_self) reads

/-- The reply to an answer without a result. -/
theorem readReply_done {dflt : String} (answer : Except String A) {extra : A → List (String × Json)} :
    readReply dflt (fun _ => .ok ()) (respond id (answer.map extra)) = answer.map fun _ => () := by
  rw [readReply_respond]
  cases answer <;> rfl

/-- A call over the bridge: what the plugin makes of the first line written for its
request, and the session it leaves. -/
def Remote.run (bridgeProjectPath : String) (id : Int32) (s : BridgeState) (server : ServerAnswers) (call : Remote A) :
    Option (Except String A × BridgeState) :=
  match call.refuses with
  | some what => some (.error what, s)
  | none =>
    let handled := handleRequest bridgeProjectPath s (some (stamp id call.request)) server
    handled.2.head?.map fun reply => (call.read reply, handled.1)

/-- The same without a bridge in between. -/
def Remote.direct (s : BridgeState) (server : ServerAnswers) (call : Remote A) : Except String A × BridgeState :=
  match call.refuses with
  | some what => (.error what, s)
  | none => call.asked s server

/-- What the plugin makes of a request is what the session answers. -/
def Meets (bridgeProjectPath : String) (id : Int32) (s : BridgeState) (server : ServerAnswers) (call : Remote A) :
    Prop :=
  (handleRequest bridgeProjectPath s (some (stamp id call.request)) server).1 = (call.asked s server).2 ∧
    ∃ reply, (handleRequest bridgeProjectPath s (some (stamp id call.request)) server).2.head? = some reply ∧
      call.read reply = (call.asked s server).1

theorem Meets.run_direct {call : Remote A} (meets : Meets bridgeProjectPath id s server call) :
    call.run bridgeProjectPath id s server = some (call.direct s server) := by
  obtain ⟨state, reply, written, reads⟩ := meets
  unfold Remote.run Remote.direct
  cases call.refuses with
  | some what => rfl
  | none =>
    dsimp only
    rw [written, Option.map_some, reads, state]

theorem meets_of_answered {call : Remote A} {op : String} (done : Answer × BridgeState)
    (asks : ((stamp id call.request).get? "op").bind Json.getAsString = some op)
    (handles : handleOp bridgeProjectPath id s (stamp id call.request) server op = answered id done)
    (state : done.2 = (call.asked s server).2) (reads : call.read (respond id done.1) = (call.asked s server).1) :
    Meets bridgeProjectPath id s server call := by
  rw [Meets, handleRequest_answered asks handles]
  exact ⟨state, _, rfl, reads⟩

/-- A call that lists records of an open repository, or of the server. -/
theorem list_meets {call : Remote (List B)} {op dflt key : String} {read : Json → Except String B}
    {listed : Except String (List A)} {json : A → Json} {shown : A → B} (more : List A → List (String × Json))
    (asks : ((stamp id call.request).get? "op").bind Json.getAsString = some op)
    (handles : handleOp bridgeProjectPath id s (stamp id call.request) server op =
      answered id (listed.map fun items => (key, .arr (items.map json)) :: more items, s))
    (reads : call.read = readReply dflt fun resp => eachOf resp key read)
    (shows : ∀ item, read (json item).dropNulls = .ok (shown item)) (other : key ≠ "id" ∧ key ≠ "ok")
    (answers : call.asked s server = (listed.map fun items => items.map shown, s)) :
    Meets bridgeProjectPath id s server call := by
  refine meets_of_answered _ asks handles ?_ ?_
  · rw [answers]
  · rw [reads, answers, readReply_list shows other]

/-- A call without a result. -/
theorem done_meets {call : Remote Unit} {op dflt : String} (outcome : Except String A × BridgeState)
    {extra : A → List (String × Json)}
    (asks : ((stamp id call.request).get? "op").bind Json.getAsString = some op)
    (handles : handleOp bridgeProjectPath id s (stamp id call.request) server op =
      answered id (outcome.1.map extra, outcome.2))
    (reads : call.read = readReply dflt fun _ => .ok ())
    (answers : call.asked s server = (outcome.1.map fun _ => (), outcome.2)) :
    Meets bridgeProjectPath id s server call := by
  refine meets_of_answered _ asks handles ?_ ?_
  · rw [answers]
  · rw [reads, answers, readReply_done]

/-- The repository is asked once its request can be read. -/
theorem asking_read {asked : C} {repo : C → String} {ask : C → Answer} :
    asking s (some asked) repo ask = (inRepo s (repo asked) (ask asked), s) := by
  unfold asking inRepo
  dsimp only
  cases s.getRepo (repo asked) <;> rfl

theorem inRepo_map {repo : String} {answer : Except String A} {f : A → B} :
    inRepo s repo (answer.map f) = (inRepo s repo answer).map f := by
  unfold inRepo
  cases s.getRepo repo <;> rfl

theorem map_map {answer : Except String A} {f : A → B} {g : B → C} : (answer.map f).map g = answer.map (g ∘ f) := by
  cases answer <;> rfl

/-- A list of texts is shown as it is. -/
theorem map_texts (answer : Except String (List String)) :
    (answer.map fun texts => texts.map fun text => text) = answer := by
  cases answer with
  | error what => rfl
  | ok texts => exact congrArg Except.ok (List.map_id' texts)

theorem listRepos_meets : Meets bridgeProjectPath id s server listRepos := by
  have answer : opListRepos s server =
      ((s.requireConnected.bind fun _ => server.getRepositoryNames).map fun repos =>
        ("repos", .arr (repos.map .str)) :: [], s) := by
    unfold opListRepos
    cases s.requireConnected <;> rfl
  refine list_meets (fun _ => []) rfl (congrArg (answered id) answer) rfl (fun text => rfl) (by decide) ?_
  exact congrArg (·, s) (map_texts _).symm

section
variable (repo folder item : String)

theorem openRepo_meets : Meets bridgeProjectPath id s server (openRepo repo) := by
  have named : ((stamp id (openRepo repo).request).get? "repo").bind Json.getAsString = some repo := rfl
  let outcome := opening s server repo fun opened => opened.startStreamer repo
  have found : namedRepository (stamp id (openRepo repo).request) server = server.getRepository repo := by
    rw [namedRepository, named]
    rfl
  have answer : s.opOpenRepo (stamp id (openRepo repo).request)
      (namedRepository (stamp id (openRepo repo).request) server) = (outcome.1.map fun _ => [], outcome.2) := by
    rw [found]
    unfold opOpenRepo
    rw [named]
    unfold outcome opening
    dsimp only
    cases s.openRepo repo (server.getRepository repo) with
    | mk found opened =>
      cases found with
      | error what => rfl
      | ok _ =>
        dsimp only
        cases opened.startStreamer repo with
        | mk started next => cases started <;> rfl
  refine done_meets _ rfl (congrArg (answered id) answer) rfl ?_
  show outcome = _
  cases outcome with
  | mk result next => cases result <;> rfl

theorem closeRepo_meets : Meets bridgeProjectPath id s server (closeRepo repo) :=
  meets_of_answered (s.opCloseRepo (stamp id (closeRepo repo).request)) rfl rfl rfl rfl

theorem listItems_meets : Meets bridgeProjectPath id s server (listItems repo folder) := by
  have answer : opListItems s (stamp id (listItems repo folder).request) server =
      ((inRepo s repo ((server.getItemList repo folder).map fun items => items.getD [])).map fun items =>
        ("items", .arr (items.map itemToJson)) :: [("count", .int items.length)], s) := by
    rw [← inRepo_map, map_map]
    exact asking_read
  refine list_meets _ rfl (congrArg (answered id) answer) rfl item_shown (by decide) ?_
  rw [← inRepo_map, map_map]
  rfl

theorem getSubfolders_meets : Meets bridgeProjectPath id s server (getSubfolders repo folder) := by
  have answer : opGetSubfolders s (stamp id (getSubfolders repo folder).request) server =
      ((inRepo s repo ((server.getSubfolderList repo folder).map fun subs => subs.getD [])).map fun subs =>
        ("subfolders", .arr (subs.map .str)) :: [("count", .int subs.length)], s) := by
    rw [← inRepo_map, map_map]
    exact asking_read
  refine list_meets _ rfl (congrArg (answered id) answer) rfl (fun text => rfl) (by decide) ?_
  exact congrArg (·, s) (map_texts _).symm

theorem getVersions_meets : Meets bridgeProjectPath id s server (getVersions repo folder item) := by
  have answer : opGetVersions s (stamp id (getVersions repo folder item).request) server =
      ((inRepo s repo (walked (server.getVersions ⟨repo, folder, item⟩))).map fun versions =>
        ("versions", .arr (versions.map versionToJson)) :: [], s) := by
    rw [← inRepo_map]
    exact asking_read
  refine list_meets (fun _ => []) rfl (congrArg (answered id) answer) rfl version_shown (by decide) ?_
  rw [← inRepo_map]
  rfl

theorem getCheckouts_meets : Meets bridgeProjectPath id s server (getCheckouts repo folder item) := by
  have answer : opGetCheckouts s (stamp id (getCheckouts repo folder item).request) server =
      ((inRepo s repo (walked (server.getCheckouts ⟨repo, folder, item⟩))).map fun checkouts =>
        ("checkouts", .arr (checkouts.map checkoutToJson)) :: [], s) := by
    rw [← inRepo_map]
    exact asking_read
  refine list_meets (fun _ => []) rfl (congrArg (answered id) answer) rfl checkout_shown (by decide) ?_
  rw [← inRepo_map]
  rfl

theorem terminateCheckout_meets (checkoutId : Int64) :
    Meets bridgeProjectPath id s server (terminateCheckout repo folder item checkoutId) := by
  have named : (int64Json checkoutId).getAsLong = some checkoutId := Json.getAsLong_toInt checkoutId
  have read : readTerminateCheckout (stamp id (terminateCheckout repo folder item checkoutId).request) =
      some (⟨repo, folder, item⟩, checkoutId) := by
    have member : ((stamp id (terminateCheckout repo folder item checkoutId).request).get? "checkout_id").bind
        Json.getAsLong = some checkoutId := named
    rw [readTerminateCheckout, member]
    rfl
  have answer : opTerminateCheckout s (stamp id (terminateCheckout repo folder item checkoutId).request) server =
      ((inRepo s repo (server.terminateCheckout ⟨repo, folder, item⟩ checkoutId)).map fun _ => [], s) := by
    rw [← inRepo_map, opTerminateCheckout, read]
    exact asking_read
  refine done_meets (inRepo s repo (server.terminateCheckout ⟨repo, folder, item⟩ checkoutId), s) rfl
    (congrArg (answered id) answer) rfl ?_
  show (inRepo s repo (server.terminateCheckout ⟨repo, folder, item⟩ checkoutId), s) = _
  cases inRepo s repo (server.terminateCheckout ⟨repo, folder, item⟩ checkoutId) <;> rfl

theorem checkout_meets (checkoutType : String) :
    Meets bridgeProjectPath id s server (checkout repo folder item bridgeProjectPath checkoutType) := by
  let req := stamp id (checkout repo folder item bridgeProjectPath checkoutType).request
  have read : readCheckout req bridgeProjectPath = some (⟨repo, folder, item⟩, checkoutType, bridgeProjectPath) := rfl
  refine meets_of_answered (opCheckout s req server bridgeProjectPath) rfl rfl rfl ?_
  unfold opCheckout
  rw [read]
  dsimp only [checkout]
  rw [readReply_respond]
  cases checkoutTypeOf checkoutType with
  | none => rfl
  | some type =>
    unfold inRepo
    dsimp only
    cases s.getRepo repo with
    | error what => rfl
    | ok _ =>
      dsimp only [Except.bind]
      cases server.checkout ⟨repo, folder, item⟩ type bridgeProjectPath with
      | error what => rfl
      | ok co =>
        cases co with
        | none => rfl
        | some co =>
          have held : (respondOk id [("checkout", checkoutToJson co)]).get? "checkout" =
              some (checkoutToJson co).dropNulls := lookup_kept rfl nofun
          show checkoutFromJson (((respondOk id [("checkout", checkoutToJson co)]).get? "checkout").getD .null) = _
          rw [held]
          exact checkout_shown co

theorem deleteItem_meets : Meets bridgeProjectPath id s server (deleteItem repo folder item) := by
  have read : readItem (stamp id (deleteItem repo folder item).request) = some ⟨repo, folder, item⟩ := rfl
  let outcome :=
    opening s server repo fun opened => (inRepo opened repo (server.deleteItem ⟨repo, folder, item⟩ (-1)), opened)
  have answer : opDeleteItem s (stamp id (deleteItem repo folder item).request) server =
      (outcome.1.map fun _ => [], outcome.2) := by
    unfold opDeleteItem
    rw [read]
    unfold outcome opening inRepo
    dsimp only
    cases s.openRepo repo (server.getRepository repo) with
    | mk found opened =>
      cases found with
      | error what => rfl
      | ok _ =>
        dsimp only
        cases opened.getRepo repo <;> rfl
  refine done_meets _ rfl (congrArg (answered id) answer) rfl ?_
  show outcome = _
  cases outcome with
  | mk result next => cases result <;> rfl

theorem uploadBinary_meets (data comment : String) (keepCheckout : Bool) (analysisJson : String)
    (connection : Connection) :
    Meets bridgeProjectPath id s server
      (uploadBinary repo folder item bridgeProjectPath data comment keepCheckout analysisJson connection) := by
  let call := uploadBinary repo folder item bridgeProjectPath data comment keepCheckout analysisJson connection
  let upload : UploadRequest := ⟨⟨repo, folder, item⟩, data, comment, connection.host, connection.port,
    connection.user, connection.password, analysisJson⟩
  have named : (int32Json connection.port).getAsInt = some connection.port := Json.getAsInt_toInt connection.port
  have port : ((stamp id call.request).get? "port").bind Json.getAsInt = some connection.port := named
  have read : readUpload (stamp id call.request) = some (upload, keepCheckout) := by
    rw [readUpload, port]
    rfl
  let outcome := call.asked s server
  have answer : ∃ extra, opUploadBinary s (stamp id call.request) server bridgeProjectPath =
      (outcome.1.map fun _ => extra, outcome.2) := by
    unfold opUploadBinary
    rw [read]
    unfold outcome call uploadBinary opening inRepo
    dsimp only [upload]
    cases server.upload _ with
    | error what => exact ⟨[], rfl⟩
    | ok _ =>
      cases keepCheckout with
      | false => exact ⟨_, rfl⟩
      | true =>
        dsimp only
        rw [if_pos rfl, if_pos rfl]
        cases s.openRepo repo (server.getRepository repo) with
        | mk found opened =>
          cases found with
          | error what => exact ⟨[], rfl⟩
          | ok _ =>
            dsimp only
            cases opened.getRepo repo with
            | error what => exact ⟨[], rfl⟩
            | ok _ =>
              dsimp only [Except.bind]
              cases server.checkout ⟨repo, folder, item⟩ .normal bridgeProjectPath with
              | error what => exact ⟨[], rfl⟩
              | ok co => exact ⟨uploadReply co, rfl⟩
  obtain ⟨extra, answer⟩ := answer
  refine done_meets _ rfl (congrArg (answered id) answer) rfl ?_
  show outcome = _
  cases outcome with
  | mk result next => cases result <;> rfl

/-- The files are written before the database is closed. -/
theorem downloadBinary_meets (version : Int32) :
    Meets bridgeProjectPath id s server (downloadBinary repo folder item version) := by
  have named : (int32Json version).getAsInt = some version := Json.getAsInt_toInt version
  let req := stamp id (downloadBinary repo folder item version).request
  have read : readVersioned req = some (⟨repo, folder, item⟩, version) := by
    have member : req.get? "version" = some (int32Json version) := rfl
    rw [readVersioned, member]
    dsimp only
    rw [named]
    rfl
  have handles : handleOp bridgeProjectPath id s req server "download_binary" = opDownloadBinary s req server id := rfl
  have asks : (req.get? "op").bind Json.getAsString = some "download_binary" := rfl
  have tried : tryRequest bridgeProjectPath s (some req) server = (id, opDownloadBinary s req server id) := by
    simp only [tryRequest, req, readRequestId_stamp]
    rw [asks]
    exact congrArg (id, ·) handles
  have listed (files : List ExtractedFile) := @readReply_list id _ _ "download_binary failed" "files" fileFromJson
    (.ok files) fileToJson shownFile (fun _ => []) file_shown (by decide)
  unfold Meets
  rw [handleRequest]
  show (tryRequest bridgeProjectPath s (some req) server).2.session = _ ∧
    ∃ reply, ((tryRequest bridgeProjectPath s (some req) server).2.written ++ _).head? = some reply ∧ _
  rw [tried]
  unfold opDownloadBinary
  rw [read]
  dsimp only [downloadBinary]
  unfold inRepo
  cases s.getRepo repo with
  | error what => exact ⟨rfl, _, rfl, rfl⟩
  | ok _ =>
    dsimp only [Except.bind]
    cases server.extract ⟨repo, folder, item⟩ version with
    | error what =>
      cases server.close <;> exact ⟨rfl, _, rfl, rfl⟩
    | ok files =>
      cases server.close <;> exact ⟨rfl, _, rfl, listed files⟩

end

theorem remote_meets (call : ServerCall) : Meets bridgeProjectPath id s server (call.remote bridgeProjectPath) := by
  cases call with
  | listRepos => exact listRepos_meets
  | openRepo repo => exact openRepo_meets repo
  | closeRepo repo => exact closeRepo_meets repo
  | listItems repo folder => exact listItems_meets repo folder
  | getSubfolders repo folder => exact getSubfolders_meets repo folder
  | getVersions repo folder item => exact getVersions_meets repo folder item
  | getCheckouts repo folder item => exact getCheckouts_meets repo folder item
  | checkout repo folder item checkoutType => exact checkout_meets repo folder item checkoutType
  | terminateCheckout repo folder item checkoutId => exact terminateCheckout_meets repo folder item checkoutId
  | deleteItem repo folder item => exact deleteItem_meets repo folder item
  | downloadBinary repo folder item version => exact downloadBinary_meets repo folder item version
  | uploadBinary repo folder item data comment keepCheckout analysisJson connection =>
    exact uploadBinary_meets repo folder item data comment keepCheckout analysisJson connection

end

end GhidraBridge.ServerCalls
