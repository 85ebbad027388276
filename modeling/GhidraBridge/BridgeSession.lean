import GhidraBridge.ProgramApplier
import GhidraBridge.DbExportJson

/-! The session behind one bridge connection (`GhidraSession.java`), and the
requests of `BridgeConnection.java` that open and close it or its repositories.
A repository handle is a remote object: it is told apart by a number given out
once, and once closed it stays closed. What the Ghidra server answers to the calls
of a request comes with the request. -/
namespace GhidraBridge
open Lib

/-- A server handle: the server it was asked from and the user it was asked for. -/
structure RepositoryServerHandle where
  host : String
  port : Int32
  user : String
  deriving DecidableEq

/-- The message and the cause of a failed handshake; a cause may have no message. -/
structure SSLHandshakeException where
  message : Option String
  cause : Option (Option String)

/-- An exception out of a call to the server; `other` holds the text it is reported by. -/
inductive RmiException where
  | sslHandshake (failed : SSLHandshakeException)
  | remote (failed : Option SSLHandshakeException) (reported : String)
  | other (reported : String)

/-- What the server asks of the user. -/
inductive AuthenticationCallback where
  | name | password | anonymous
  | unsupported (simpleName : String)

/-- What the server answers to the calls of one connect. -/
structure GhidraServerAnswers where
  /-- The registry, the lookup and the check of the interface version. -/
  lookup : Except RmiException Unit := .ok ()
  getAuthenticationCallbacks : Except RmiException (Option (List AuthenticationCallback)) := .ok none
  getRepositoryServer : (user password : String) → Except RmiException Unit := fun _ _ => .ok ()
  connected : Except RmiException Unit := .ok ()

def containsChars (part : List Char) : List Char → Bool
  | [] => part.isEmpty
  | c :: rest => part.isPrefixOf (c :: rest) || containsChars part rest

/-- `text.contains(part)`. -/
def containsText (text part : String) : Bool := containsChars part.toList text.toList

def classifySSLError (e : SSLHandshakeException) : String :=
  let msg := e.message.getD ""
  let cause := e.cause.elim "" (·.getD "null")
  let combined := msg ++ " " ++ cause
  if containsText combined "PKIX" || containsText combined "unable to find valid certification path" ||
      containsText combined "certificate_unknown" then
    "SSL certificate not trusted — the Ghidra Server is likely using a self-signed " ++
    "certificate. Enable 'Trust All Certs' in Binary Ninja settings " ++
    "(Preferences → Settings → search 'Ghidra' → ghidra.trustAllCerts) " ++
    "and restart Binary Ninja."
  else if containsText combined "No subject alternative" || containsText combined "hostname" then
    "SSL hostname mismatch — the server certificate was not issued for '" ++
    "the hostname you connected to. Enable 'Trust All Certs' in Binary Ninja " ++
    "settings (Preferences → Settings → search 'Ghidra' → ghidra.trustAllCerts) " ++
    "and restart Binary Ninja, or regenerate the server certificate with the " ++
    "correct hostname."
  else "SSL handshake failed: " ++ msg

/-- The text a failed connect is reported by. -/
def RmiException.reported : RmiException → String
  | .sslHandshake failed => classifySSLError failed
  | .remote (some failed) _ => classifySSLError failed
  | .remote none reported => reported
  | .other reported => reported

/-- The callbacks are filled in; only a name, a password and anonymous access are known. -/
def satisfyCallbacks : List AuthenticationCallback → Except RmiException Unit
  | [] => .ok ()
  | .unsupported simpleName :: _ =>
    .error (.other ("Unsupported auth callback: " ++ simpleName ++
      ". Only password authentication is currently implemented."))
  | _ :: rest => satisfyCallbacks rest

/-- The steps up to the server handle. -/
def GhidraServerAnswers.handle (server : GhidraServerAnswers) (user password : String) :
    Except RmiException Unit := do
  server.lookup
  match ← server.getAuthenticationCallbacks with
  | none => pure ()
  | some callbacks => satisfyCallbacks callbacks
  server.getRepositoryServer user password

/-- The thread that waits for the events of a repository. -/
structure EventStreamer where
  repo : Nat
  running : Bool
  deriving DecidableEq

/-- A bridge connection: its session, the streamers it started, and the repository
handles it has used up. -/
structure BridgeState where
  serverHandle : Option RepositoryServerHandle := none
  openRepos : Table String Nat := ∅
  connectedUser : Option String := none
  streamers : Table String EventStreamer := ∅
  closed : List Nat := []
  nextHandle : Nat := 0

namespace BridgeState

/-! ## The session -/

/-- `GhidraSession.disconnect`. -/
def disconnect (s : BridgeState) : BridgeState :=
  { s with
    closed := s.closed ++ s.openRepos.items.map Prod.snd
    openRepos := ∅
    serverHandle := none
    connectedUser := none }

/-- `GhidraSession.connect`: the old session is dropped first, and the handle is
set before the server is told so and the user is recorded. -/
def connect (s : BridgeState) (host : String) (port : Int32) (user password : String)
    (server : GhidraServerAnswers) : Except String Unit × BridgeState :=
  let dropped := s.disconnect
  match server.handle user password with
  | .error e => (.error e.reported, dropped)
  | .ok () =>
    let handled := { dropped with serverHandle := some ⟨host, port, user⟩ }
    match server.connected with
    | .error e => (.error e.reported, handled)
    | .ok () => (.ok (), { handled with connectedUser := some user })

def requireConnected (s : BridgeState) : Except String Unit :=
  match s.serverHandle with
  | none => .error "Not connected to Ghidra server"
  | some _ => .ok ()

/-- `openRepo`; `found` is the server's answer, `false` for a repository that is not there. -/
def openRepo (s : BridgeState) (name : String) (found : Except String Bool) : Except String Unit × BridgeState :=
  match s.requireConnected with
  | .error what => (.error what, s)
  | .ok () =>
    if name ∈ s.openRepos then (.ok (), s)
    else
      match found with
      | .error what => (.error what, s)
      | .ok false => (.error ("Repository not found: " ++ name), s)
      | .ok true =>
        (.ok (), { s with openRepos := s.openRepos.set name s.nextHandle, nextHandle := s.nextHandle + 1 })

def closeRepo (s : BridgeState) (name : String) : BridgeState :=
  match s.openRepos.lookup name with
  | none => s
  | some repo => { s with openRepos := s.openRepos.erase name, closed := s.closed ++ [repo] }

def getRepo (s : BridgeState) (name : String) : Except String Nat :=
  match s.openRepos.lookup name with
  | none => .error ("Repository not open: " ++ name)
  | some repo => .ok repo

/-! ## The streamers -/

def startStreamer (s : BridgeState) (name : String) : Except String Unit × BridgeState :=
  if name ∈ s.streamers then (.ok (), s)
  else
    match s.getRepo name with
    | .error what => (.error what, s)
    | .ok repo => (.ok (), { s with streamers := s.streamers.set name { repo, running := true } })

/-- A streamer that is stopped is taken out of the map as well. -/
def stopStreamer (s : BridgeState) (name : String) : BridgeState :=
  { s with streamers := s.streamers.erase name }

def stopAllStreamers (s : BridgeState) : BridgeState := { s with streamers := ∅ }

/-- `getEvents` throws on a closed handle, and the thread ends. The streamer stays
in the map. -/
def streamerEnds (s : BridgeState) (name : String) : BridgeState :=
  match s.streamers.lookup name with
  | none => s
  | some streamer =>
    if streamer.repo ∈ s.closed then
      { s with streamers := s.streamers.set name { streamer with running := false } }
    else s

/-! ## The requests -/

/-- What a handler answers: the members of the reply, or the text of an exception. -/
abbrev Answer := Except String (List (String × Json))

def respondError (id : Int32) (error : String) : Json :=
  .obj [("id", .int id.toInt), ("ok", .bool false), ("error", .str error)]

/-- The line a handler's answer is sent as. -/
def respond (id : Int32) : Answer → Json
  | .ok extra => respondOk id extra
  | .error what => respondError id what

def readConnect (req : Json) : Option (String × Int32 × String × String) := do
  let host ← (req.get? "host").bind Json.getAsString
  let port ← (req.get? "port").bind Json.getAsInt
  let user ← (req.get? "user").bind Json.getAsString
  let password ← req.getStr "password" ""
  return (host, port, user, password)

def opConnect (s : BridgeState) (req : Json) (server : GhidraServerAnswers) : Answer × BridgeState :=
  match readConnect req with
  | none => (.error Json.typeError, s)
  | some (host, port, user, password) =>
    match s.connect host port user password server with
    | (.error what, next) => (.error what, next)
    | (.ok (), next) => (.ok [("user", (next.connectedUser.map Json.str).getD .null)], next)

def opDisconnect (s : BridgeState) : Answer × BridgeState := (.ok [], s.stopAllStreamers.disconnect)

def opOpenRepo (s : BridgeState) (req : Json) (found : Except String Bool) : Answer × BridgeState :=
  match (req.get? "repo").bind Json.getAsString with
  | none => (.error Json.typeError, s)
  | some name =>
    match s.openRepo name found with
    | (.error what, next) => (.error what, next)
    | (.ok (), opened) =>
      match opened.startStreamer name with
      | (.error what, next) => (.error what, next)
      | (.ok (), next) => (.ok [], next)

def opCloseRepo (s : BridgeState) (req : Json) : Answer × BridgeState :=
  match (req.get? "repo").bind Json.getAsString with
  | none => (.error Json.typeError, s)
  | some name => (.ok [], (s.stopStreamer name).closeRepo name)

/-- The repository of an `open_db` request whose other members can be read. -/
def readOpenDb (req : Json) : Option String := do
  let repo ← (req.get? "repo").bind Json.getAsString
  let _ ← req.getStr "folder" "/"
  let _ ← (req.get? "item").bind Json.getAsString
  match req.get? "version" with
  | none => pure ()
  | some version => let _ ← version.getAsInt
  return repo

/-- `opOpenDb` opens the repository without a streamer; the export does not touch the session. -/
def opOpenDb (s : BridgeState) (req : Json) (found : Except String Bool) (exported : Answer) :
    Answer × BridgeState :=
  match readOpenDb req with
  | none => (.error Json.typeError, s)
  | some name =>
    match s.openRepo name found with
    | (.error what, next) => (.error what, next)
    | (.ok (), opened) => (exported, opened)

/-! ## The state after a request -/

variable {s : BridgeState} {req : Json}

theorem opConnect_unread {server : GhidraServerAnswers} (unread : readConnect req = none) :
    s.opConnect req server = (.error Json.typeError, s) := by
  rw [opConnect, unread]

/-- A request that can be read connects, whether or not it succeeds. -/
theorem opConnect_read {server : GhidraServerAnswers} {host : String} {port : Int32} {user password : String}
    (read : readConnect req = some (host, port, user, password)) :
    (s.opConnect req server).2 = (s.connect host port user password server).2 ∧
      ((s.opConnect req server).1.isOk = (s.connect host port user password server).1.isOk) := by
  rw [opConnect, read]
  dsimp only
  split
  · rename_i what next failed
    rw [failed]
    exact ⟨rfl, rfl⟩
  · rename_i next succeeded
    rw [succeeded]
    exact ⟨rfl, rfl⟩

/-- A request to open a repository opens it, and if that succeeds starts its streamer. -/
theorem opOpenRepo_state {found : Except String Bool} :
    (s.opOpenRepo req found).2 = s ∨
      ∃ name, (s.opOpenRepo req found).2 = (s.openRepo name found).2 ∨
        (s.opOpenRepo req found).2 = ((s.openRepo name found).2.startStreamer name).2 := by
  unfold opOpenRepo
  split
  · exact .inl rfl
  · rename_i name _
    refine .inr ⟨name, ?_⟩
    split
    · rename_i what next failed
      rw [failed]
      exact .inl rfl
    · rename_i opened succeeded
      rw [succeeded]
      refine .inr ?_
      dsimp only
      split
      · rename_i what next failed
        rw [failed]
      · rename_i next started
        rw [started]

/-- Opening a database leaves what opening its repository leaves. -/
theorem opOpenDb_state {found : Except String Bool} {exported : Answer} :
    (s.opOpenDb req found exported).2 = s ∨
      ∃ name, (s.opOpenDb req found exported).2 = (s.openRepo name found).2 := by
  unfold opOpenDb
  split
  · exact .inl rfl
  · rename_i name _
    refine .inr ⟨name, ?_⟩
    split
    · rename_i what next failed
      rw [failed]
    · rename_i opened succeeded
      rw [succeeded]

end BridgeState
end GhidraBridge
