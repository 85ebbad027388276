import GhidraBridge.ServerSession
import GhidraBridge.BridgeSession

/-! The session as its two ends see it. The plugin keeps the server and the user of
the last connect that succeeded; the bridge keeps a handle and a user, and drops
both before it tries to connect. -/
namespace GhidraBridge.SessionAgreement
open Lib BridgeState

/-- The plugin's connection and the bridge connection behind it. -/
structure Joint where
  client : GhidraConnection := {}
  bridge : BridgeState := {}

/-- `sendAsync` numbers a request. -/
def stamp (id : Int32) (req : Json) : Json :=
  .obj (("id", int32Json id) :: req.fields.filter fun field => field.1 ≠ "id")

/-- The number a request is answered under. -/
def requestId (req : Json) : Int32 := ((req.get? "id").bind Json.getAsInt).getD (-1)

/-- A request that reaches the bridge, with the reply that comes back. -/
def exchange (handler : Json → Answer × BridgeState) (id : Int32) (req : Json) : Json × BridgeState :=
  let answered := handler (stamp id req)
  (respond (requestId (stamp id req)) answered.1, answered.2)

/-- The request `connectToServer` sends. -/
def connectRequest (host : String) (port : Int32) (user password : String) : Json :=
  .obj [("op", .str "connect"), ("host", .str host), ("port", int32Json port), ("user", .str user),
    ("password", .str password)]

/-- A request of a connected plugin; those that only read the session are all alike. -/
inductive SessionRequest where
  | openRepo (req : Json) (found : Except String Bool)
  | closeRepo (req : Json)
  | openDb (req : Json) (found : Except String Bool) (exported : Answer)
  | reading

def handle (s : BridgeState) : SessionRequest → BridgeState
  | .openRepo req found => (s.opOpenRepo req found).2
  | .closeRepo req => (s.opCloseRepo req).2
  | .openDb req found exported => (s.opOpenDb req found exported).2
  | .reading => s

/-- A call of the plugin, with what the Ghidra server answers to the bridge and, where
the bridge is not connected yet, the outcome of connecting it. -/
inductive Call where
  | connectToServer (host : String) (port : Int32) (user password : String) (bridge : Except String Unit)
      (id : Int32) (server : GhidraServerAnswers)
  | disconnectFromServer
  | request (request : SessionRequest)

def apply (s : Joint) : Call → Joint
  | .connectToServer host port user password bridge id server =>
    -- a bridge that was not connected before answers from a session of its own
    let reached := if s.client.bridgeConnected then s.bridge else {}
    let send := exchange (fun req => reached.opConnect req server) id
    { client := (s.client.connectToServer host port user password bridge fun req => .ok (send req).1).2
      bridge :=
        if s.client.bridgeConnected || bridge.isOk then (send (connectRequest host port user password)).2
        else s.bridge }
  | .disconnectFromServer =>
    { client := s.client.disconnectFromServer
      bridge :=
        if s.client.bridgeConnected && s.client.serverConnected then s.bridge.opDisconnect.2 else s.bridge }
  | .request request => { s with bridge := handle s.bridge request }

def Step (s : Joint) (call : Call) (next : Joint) : Prop := next = apply s call

/-- Both ends hold a session or neither does, and if they do it is the same one. -/
structure Agree (s : Joint) : Prop where
  connected : s.client.serverConnected = true ↔
    s.bridge.serverHandle.isSome = true ∧ s.bridge.connectedUser.isSome = true
  same : s.client.serverConnected = true →
    s.bridge.serverHandle = some ⟨s.client.host, s.client.port, s.client.user⟩ ∧
      s.bridge.connectedUser = some s.client.user

/-- The server takes every step of a connect. -/
def accepts (server : GhidraServerAnswers) (user password : String) : Bool :=
  (server.handle user password).isOk && server.connected.isOk

/-- While the plugin is connected, it connects again only to a server that takes it. -/
def ReconnectsTaken (s : Joint) : Call → Prop
  | .connectToServer _ _ user password _ _ server =>
    s.client.serverConnected = true → accepts server user password = true
  | _ => True

/-! ## The bridge's end -/

theorem readConnect_stamp (id : Int32) (host : String) (port : Int32) (user password : String) :
    readConnect (stamp id (connectRequest host port user password)) = some (host, port, user, password) := by
  have read : (int32Json port).getAsInt = some port := Json.getAsInt_toInt port
  have portRead : ((stamp id (connectRequest host port user password)).get? "port").bind Json.getAsInt = some port :=
    read
  rw [readConnect, portRead]
  rfl

/-- A taken connect leaves the session it was asked for, any other one no user. -/
theorem connect_cases (s : BridgeState) (host : String) (port : Int32) (user password : String)
    (server : GhidraServerAnswers) :
    let attempt := s.connect host port user password server
    if accepts server user password then
      attempt.1.isOk = true ∧ attempt.2.serverHandle = some ⟨host, port, user⟩ ∧ attempt.2.connectedUser = some user
    else attempt.1.isOk = false ∧ attempt.2.connectedUser = none := by
  unfold accepts BridgeState.connect
  cases server.handle user password with
  | error e => exact ⟨rfl, rfl⟩
  | ok _ =>
    cases server.connected with
    | error e => exact ⟨rfl, rfl⟩
    | ok _ => exact ⟨rfl, rfl, rfl⟩

/-- The plugin reads out of a reply whether the handler answered. -/
theorem readConnectReply_respond (id : Int32) (answer : Answer) :
    ∃ error, GhidraConnection.readConnectReply (respond id answer) = .ok error ∧
      (error = none ↔ answer.isOk = true) := by
  cases answer with
  | error what => exact ⟨some what, rfl, by simp [Except.isOk, Except.toBool]⟩
  | ok extra =>
    refine ⟨none, ?_, by simp [Except.isOk, Except.toBool]⟩
    unfold respond respondOk
    simp only [List.cons_append, List.nil_append, Json.dropNulls, Json.dropNullsOfFields]
    rfl

/-- The requests in between open and close repositories and leave the session. -/
theorem handle_session (s : BridgeState) (request : SessionRequest) :
    (handle s request).serverHandle = s.serverHandle ∧ (handle s request).connectedUser = s.connectedUser := by
  have opened (name : String) (found : Except String Bool) :
      (s.openRepo name found).2.serverHandle = s.serverHandle ∧
        (s.openRepo name found).2.connectedUser = s.connectedUser := by
    unfold BridgeState.openRepo
    repeat' split
    all_goals exact ⟨rfl, rfl⟩
  have started (s : BridgeState) (name : String) :
      (s.startStreamer name).2.serverHandle = s.serverHandle ∧
        (s.startStreamer name).2.connectedUser = s.connectedUser := by
    unfold BridgeState.startStreamer
    repeat' split
    all_goals exact ⟨rfl, rfl⟩
  cases request with
  | openRepo req found =>
    rw [handle]
    rcases @opOpenRepo_state s req found with same | ⟨name, same | same⟩
    · rw [same]
      exact ⟨rfl, rfl⟩
    · rw [same]
      exact opened name found
    · rw [same]
      obtain ⟨handle, user⟩ := started (s.openRepo name found).2 name
      exact ⟨handle.trans (opened name found).1, user.trans (opened name found).2⟩
  | closeRepo req =>
    rw [handle, opCloseRepo]
    split
    · exact ⟨rfl, rfl⟩
    · unfold BridgeState.closeRepo
      dsimp only
      split <;> exact ⟨rfl, rfl⟩
  | openDb req found exported =>
    rw [handle]
    rcases @opOpenDb_state s req found exported with same | ⟨name, same⟩
    · rw [same]
      exact ⟨rfl, rfl⟩
    · rw [same]
      exact opened name found
  | reading => exact ⟨rfl, rfl⟩

/-! ## The calls -/

/-- What the plugin makes of the reply to a connect. -/
theorem connectToServer_reply {conn : GhidraConnection} {host : String} {port : Int32} {user password : String}
    {bridge : Except String Unit} {send : Json → Except String Json} {error : Option String}
    (bridged : (if conn.bridgeConnected = true then .ok () else bridge) = .ok ())
    (reads : send (connectRequest host port user password) >>= GhidraConnection.readConnectReply = .ok error) :
    (conn.connectToServer host port user password bridge send).2 =
      if error = none then
        { conn with bridgeConnected := true, serverConnected := true, user, host, port, password }
      else { conn with bridgeConnected := true } := by
  unfold connectRequest at reads
  rw [GhidraConnection.connectToServer, bridged]
  dsimp only
  rw [reads]
  cases error with
  | none => rfl
  | some what => rfl

section
variable (s : Joint) (host : String) (port : Int32) (user password : String) (bridge : Except String Unit)
  (id : Int32) (server : GhidraServerAnswers)

/-- A connect that does not reach the bridge changes nothing. -/
theorem connect_unsent (unsent : (s.client.bridgeConnected || bridge.isOk) = false) :
    apply s (.connectToServer host port user password bridge id server) = s := by
  obtain ⟨unconnected, failed⟩ := Bool.or_eq_false_iff.mp unsent
  cases bridge with
  | ok _ => cases failed
  | error what =>
    rw [apply, GhidraConnection.connectToServer]
    simp only [failed, unconnected, Bool.or_self, Bool.false_eq_true, if_false]

/-- A connect that reaches the bridge moves both ends if the server takes it; else the
bridge is left without a user and the plugin as it was. -/
theorem connect_sent (sent : (s.client.bridgeConnected || bridge.isOk) = true) :
    let next := apply s (.connectToServer host port user password bridge id server)
    next.client.bridgeConnected = true ∧
      if accepts server user password then
        next.client.serverConnected = true ∧ next.client.host = host ∧ next.client.port = port ∧
          next.client.user = user ∧ next.bridge.serverHandle = some ⟨host, port, user⟩ ∧
          next.bridge.connectedUser = some user
      else next.client.serverConnected = s.client.serverConnected ∧ next.bridge.connectedUser = none := by
  have bridged : (if s.client.bridgeConnected = true then .ok () else bridge) = .ok () := by
    cases connected : s.client.bridgeConnected with
    | true => rfl
    | false =>
      rw [connected, Bool.false_or] at sent
      cases bridge with
      | ok _ => rfl
      | error what => cases sent
  rw [apply]
  dsimp only
  rw [if_pos sent]
  generalize (if s.client.bridgeConnected = true then s.bridge else {}) = reached
  obtain ⟨state, answer⟩ := @opConnect_read reached _ server _ _ _ _ (readConnect_stamp id host port user password)
  obtain ⟨error, reads, taken⟩ := readConnectReply_respond
    (requestId (stamp id (connectRequest host port user password)))
    (reached.opConnect (stamp id (connectRequest host port user password)) server).1
  rw [@connectToServer_reply s.client host port user password bridge
    (fun req => .ok (exchange (fun req => reached.opConnect req server) id req).1) error bridged reads]
  have outcome := connect_cases reached host port user password server
  dsimp only at outcome
  rw [← answer, ← state] at outcome
  unfold exchange
  dsimp only
  split at outcome
  · rename_i accepted
    rw [if_pos accepted, if_pos (taken.mpr outcome.1)]
    exact ⟨rfl, rfl, rfl, rfl, rfl, outcome.2⟩
  · rename_i refused
    have failed : error ≠ none := by
      intro none
      rw [taken.mp none] at outcome
      cases outcome.1
    rw [if_neg refused, if_neg failed]
    exact ⟨rfl, rfl, outcome.2⟩

end

/-! ## Runs -/

/-- The ends agree, a connected plugin has its bridge, and the bridge knows no user of
a plugin that is not connected. -/
structure Inv (s : Joint) : Prop where
  agree : Agree s
  bridged : s.client.serverConnected = true → s.client.bridgeConnected = true
  unknown : s.client.serverConnected = false → s.bridge.connectedUser = none

theorem agree_unconnected {s : Joint} (client : s.client.serverConnected = false)
    (bridge : s.bridge.connectedUser = none) : Agree s where
  connected := by simp [client, bridge]
  same held := by
    rw [client] at held
    cases held

theorem inv_step (s : Joint) (call : Call) (next : Joint) (inv : Inv s) (taken : ReconnectsTaken s call)
    (step : Step s call next) : Inv next := by
  subst step
  cases call with
  | connectToServer host port user password bridge id server =>
    cases sent : s.client.bridgeConnected || bridge.isOk with
    | false =>
      rw [connect_unsent s host port user password bridge id server sent]
      exact inv
    | true =>
      obtain ⟨bridged, outcome⟩ := connect_sent s host port user password bridge id server sent
      split at outcome
      · obtain ⟨connected, sameHost, samePort, sameUser, handle, known⟩ := outcome
        refine ⟨⟨?_, fun _ => ?_⟩, fun _ => bridged, fun unconnected => ?_⟩
        · simp [connected, handle, known]
        · rw [sameHost, samePort, sameUser]
          exact ⟨handle, known⟩
        · rw [connected] at unconnected
          cases unconnected
      · rename_i refused
        -- a refused connect is allowed only where the plugin is not connected
        have unconnected : s.client.serverConnected = false := by
          by_contra connected
          exact refused (taken (by simpa using connected))
        exact ⟨agree_unconnected (outcome.1.trans unconnected) outcome.2, fun _ => bridged, fun _ => outcome.2⟩
  | disconnectFromServer =>
    have dropped : (apply s .disconnectFromServer).bridge.connectedUser = none := by
      rw [apply]
      dsimp only
      cases connected : s.client.serverConnected with
      | true =>
        rw [inv.bridged connected]
        rfl
      | false =>
        rw [Bool.and_false, if_neg Bool.false_ne_true]
        exact inv.unknown connected
    exact ⟨agree_unconnected rfl dropped, fun held => (by cases held), fun _ => dropped⟩
  | request request =>
    obtain ⟨handle, user⟩ := handle_session s.bridge request
    refine ⟨⟨?_, ?_⟩, inv.bridged, ?_⟩
    · rw [apply, handle, user]
      exact inv.agree.connected
    · rw [apply, handle, user]
      exact inv.agree.same
    · rw [apply, user]
      exact inv.unknown

/-- Along every run in which a connected plugin connects again only to a server that
takes it, the two ends agree on the session after every call. -/
theorem ends_agree_on_session {s : Joint} (reached : Runs.Reaches Step ReconnectsTaken {} s) : Agree s := by
  have start : Inv {} := ⟨agree_unconnected rfl rfl, fun held => (by cases held), fun _ => rfl⟩
  exact (reached.invariant start inv_step).agree

/-- The server takes every connect but those of one user. -/
def refusing (refused : String) : GhidraServerAnswers where
  getRepositoryServer := fun user _ => if user = refused then .error (.other "Access denied") else .ok ()

def connectAs (user : String) : Call :=
  .connectToServer "a" 13100 user "secret" (.ok ()) 1 (refusing "mallory")

/-- A first connect that is refused, and a second one that is taken. -/
theorem taken_after_refused_agree :
    let s := apply (apply {} (connectAs "mallory")) (connectAs "alice")
    Agree s ∧ s.client.serverConnected = true ∧ s.client.user = "alice" := by
  intro s
  refine ⟨ends_agree_on_session (.step (.step .start ?_ rfl) ?_ rfl), by decide +kernel, by decide +kernel⟩
  · intro connected
    cases connected
  · intro _
    decide +kernel

/-- Connected as one user, the plugin fails to connect as another one: the bridge has
dropped the session and the plugin still shows it. -/
theorem refused_reconnect_disagrees :
    let s := apply (apply {} (connectAs "alice")) (connectAs "mallory")
    Runs.Reaches Step (fun _ _ => True) {} s ∧ s.client.serverConnected = true ∧ s.client.user = "alice" ∧
      s.bridge.serverHandle = none ∧ s.bridge.connectedUser = none ∧ ¬Agree s := by
  intro s
  have shown : s.client.serverConnected = true := by decide +kernel
  have dropped : s.bridge.serverHandle = none := by decide +kernel
  refine ⟨.step (.step .start trivial rfl) trivial rfl, shown, by decide +kernel, dropped, by decide +kernel, ?_⟩
  intro agree
  have handle := (agree.same shown).1
  rw [dropped] at handle
  cases handle

end GhidraBridge.SessionAgreement
