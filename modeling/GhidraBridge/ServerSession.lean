import GhidraBridge.CheckinAtomicity
import GhidraBridge.Lib.Runs

/-! The server a check-in goes to. The session and the check-in state are members
of one connection and move independently: connecting does not look at the
check-in state, and storing a check-in state does not record the session. -/
namespace GhidraBridge
open Lib

/-- The server of a session. -/
structure Session where
  host : String
  port : Int32
  deriving DecidableEq

namespace GhidraConnection

/-- The server the connection is connected to. -/
def session (conn : GhidraConnection) : Option Session :=
  if conn.serverConnected then some ⟨conn.host, conn.port⟩ else none

/-- The reply to a connect request: an error text, or acceptance. -/
def readConnectReply (resp : Json) : Except String (Option String) := do
  if ← resp.valueOr "ok" Json.getBool false then return none
  else return some (← resp.valueOr "error" Json.getString "unknown error")

/-- `connectToServer`: the flag, the error text and the connection afterwards.
`bridge` is the outcome of `connectBridge`, where the bridge is not connected yet. -/
def connectToServer (conn : GhidraConnection) (host : String) (port : Int32) (user password : String)
    (bridge : Except String Unit) (send : Json → Except String Json) : (Bool × String) × GhidraConnection :=
  match (if conn.bridgeConnected then .ok () else bridge) with
  | .error what => ((false, what), conn)
  | .ok () =>
    let bridged := { conn with bridgeConnected := true }
    let req := Json.obj [("op", .str "connect"), ("host", .str host), ("port", int32Json port),
      ("user", .str user), ("password", .str password)]
    match send req >>= readConnectReply with
    | .error what => ((false, what), bridged)
    | .ok (some error) => ((false, error), bridged)
    | .ok none => ((true, ""), { bridged with serverConnected := true, user, host, port, password })

/-- `disconnectFromServer`; the reply of the server is not looked at. -/
def disconnectFromServer (conn : GhidraConnection) : GhidraConnection :=
  { conn with serverConnected := false, user := "", host := "", port := 0, password := "" }

def storeCheckinState (conn : GhidraConnection) (r : SyncResult) (repo folder item : String) : GhidraConnection :=
  { conn with checkinState := .store r repo folder item }

def clearCheckinState (conn : GhidraConnection) : GhidraConnection := { conn with checkinState := .clear }

/-- The tests `checkin` makes before it sends its request. -/
def sendsCheckin (conn : GhidraConnection) : Bool :=
  conn.bridgeConnected && conn.serverConnected && conn.checkinState.hasCheckinState

/-- A request that is not sent does not see the server's reply, one that is sent
hands on the error it fails with. -/
theorem checkin_sends (conn : GhidraConnection) (view : BinaryView) (preview : GhidraCheckinPreview)
    (comment : String) :
    (conn.sendsCheckin = true → ∀ what,
      (conn.checkin view preview comment fun _ => .error what).1.errorOut = what) ∧
    (conn.sendsCheckin = false → ∀ send other,
      conn.checkin view preview comment send = conn.checkin view preview comment other) := by
  unfold sendsCheckin CheckinState.hasCheckinState checkin
  cases conn.bridgeConnected with
  | false => simp
  | true =>
    cases conn.serverConnected with
    | false => simp
    | true =>
      by_cases imported : conn.checkinState.checkinItem = ""
      · simp [imported]
      · simp only [imported, Bool.true_and, ne_eq, not_false_eq_true, decide_true, if_false]
        refine ⟨fun _ what => rfl, fun unsent => ?_⟩
        cases unsent

/-- A check-in neither moves the session nor gives up the check-in state. -/
theorem checkin_session (conn : GhidraConnection) (view : BinaryView) (preview : GhidraCheckinPreview)
    (comment : String) (send : Json → Except String Json) :
    (conn.checkin view preview comment send).2.session = conn.session ∧
      (conn.checkin view preview comment send).2.checkinState.hasCheckinState =
        conn.checkinState.hasCheckinState := by
  rcases CheckinAtomicity.checkin_cases conn view preview comment send with ⟨_, kept⟩ | ⟨_, _, types, _, after⟩
  · rw [kept]
    exact ⟨rfl, rfl⟩
  · rw [after]
    exact ⟨rfl, rfl⟩

/-- Connecting leaves the check-in state alone, and the session too unless it succeeds. -/
theorem connectToServer_cases (conn : GhidraConnection) (host : String) (port : Int32) (user password : String)
    (bridge : Except String Unit) (send : Json → Except String Json) :
    let attempt := conn.connectToServer host port user password bridge send
    attempt.2.checkinState = conn.checkinState ∧
      ((attempt.1.1 = false ∧ attempt.2.session = conn.session) ∨
        (attempt.1.1 = true ∧ attempt.2.session = some ⟨host, port⟩)) := by
  unfold connectToServer
  dsimp only
  split
  · exact ⟨rfl, .inl ⟨rfl, rfl⟩⟩
  · split
    · exact ⟨rfl, .inl ⟨rfl, rfl⟩⟩
    · exact ⟨rfl, .inl ⟨rfl, rfl⟩⟩
    · exact ⟨rfl, .inr ⟨rfl, rfl⟩⟩

end GhidraConnection

namespace ServerSession

/-- What may happen to the connection; the last one is outside of its control. -/
inductive Op where
  | connectToServer (host : String) (port : Int32) (user password : String) (bridge : Except String Unit)
      (send : Json → Except String Json)
  | disconnectFromServer
  | storeCheckinState (r : SyncResult) (repo folder item : String)
  | clearCheckinState
  | checkin (view : BinaryView) (preview : GhidraCheckinPreview) (comment : String)
      (send : Json → Except String Json)
  | bridgeLost

/-- A check-in request: the session it was sent in, and the one its baseline was
stored in. -/
structure SentCheckin where
  session : Option Session
  storedIn : Option Session
  deriving DecidableEq

/-- A connection with its history: the session in which the current baseline was
stored, and the check-in requests sent so far. -/
structure Tracked where
  conn : GhidraConnection := {}
  storedIn : Option Session := none
  sent : List SentCheckin := []

def apply (s : Tracked) : Op → Tracked
  | .connectToServer host port user password bridge send =>
    { s with conn := (s.conn.connectToServer host port user password bridge send).2 }
  | .disconnectFromServer => { s with conn := s.conn.disconnectFromServer }
  | .storeCheckinState r repo folder item =>
    { s with conn := s.conn.storeCheckinState r repo folder item, storedIn := s.conn.session }
  | .clearCheckinState => { s with conn := s.conn.clearCheckinState, storedIn := none }
  | .checkin view preview comment send =>
    { s with
      conn := (s.conn.checkin view preview comment send).2
      sent := if s.conn.sendsCheckin then s.sent ++ [⟨s.conn.session, s.storedIn⟩] else s.sent }
  | .bridgeLost => { s with conn := { s.conn with bridgeConnected := false } }

def Step (s : Tracked) (op : Op) (next : Tracked) : Prop := next = apply s op

/-- The request went to the server its baseline was stored from. -/
def SentCheckin.Right (request : SentCheckin) : Prop :=
  request.session ≠ none ∧ request.storedIn = request.session

/-- A check-in state is stored while a server is connected, and while one is held
only its own server is connected to. -/
def Keeps (s : Tracked) : Op → Prop
  | .storeCheckinState .. => s.conn.session ≠ none
  | .connectToServer host port user password bridge send =>
    s.conn.checkinState.hasCheckinState = true →
      (s.conn.connectToServer host port user password bridge send).1.1 = true → s.storedIn = some ⟨host, port⟩
  | _ => True

/-- A held baseline has its server, and a connection holding it is connected to
that server or to none. -/
structure Inv (s : Tracked) : Prop where
  stored : s.conn.checkinState.hasCheckinState = true → s.storedIn ≠ none
  same : s.conn.checkinState.hasCheckinState = true → s.conn.session ≠ none → s.storedIn = s.conn.session
  right : ∀ request ∈ s.sent, request.Right

theorem session_of_sends {conn : GhidraConnection} (sends : conn.sendsCheckin = true) :
    conn.session ≠ none ∧ conn.checkinState.hasCheckinState = true := by
  unfold GhidraConnection.sendsCheckin at sends
  simp only [Bool.and_eq_true] at sends
  refine ⟨?_, sends.2⟩
  rw [GhidraConnection.session, if_pos sends.1.2]
  exact Option.some_ne_none _

theorem inv_step (s : Tracked) (op : Op) (next : Tracked) (inv : Inv s) (keeps : Keeps s op)
    (taken : Step s op next) : Inv next := by
  subst taken
  cases op with
  | connectToServer host port user password bridge send =>
    obtain ⟨state, session⟩ := s.conn.connectToServer_cases host port user password bridge send
    refine ⟨?_, ?_, inv.right⟩
    · intro held
      rw [apply, state] at held
      exact inv.stored held
    · intro held connected
      rw [apply, state] at held
      rcases session with ⟨_, unchanged⟩ | ⟨accepted, moved⟩
      · rw [apply, unchanged] at connected ⊢
        exact inv.same held connected
      · rw [apply, moved]
        exact keeps held accepted
  | disconnectFromServer => exact ⟨inv.stored, fun _ connected => absurd rfl connected, inv.right⟩
  | storeCheckinState r repo folder item => exact ⟨fun _ => keeps, fun _ _ => rfl, inv.right⟩
  | clearCheckinState =>
    have cleared : (s.conn.clearCheckinState).checkinState.hasCheckinState = false := rfl
    refine ⟨?_, ?_, inv.right⟩
    · intro held
      rw [apply, cleared] at held
      cases held
    · intro held
      rw [apply, cleared] at held
      cases held
  | bridgeLost => exact ⟨inv.stored, inv.same, inv.right⟩
  | checkin view preview comment send =>
    obtain ⟨session, state⟩ := s.conn.checkin_session view preview comment send
    refine ⟨?_, ?_, ?_⟩
    · intro held
      rw [apply, state] at held
      exact inv.stored held
    · intro held connected
      rw [apply, state] at held
      rw [apply, session] at connected ⊢
      exact inv.same held connected
    · intro request member
      rw [apply] at member
      dsimp only at member
      split at member
      · rename_i sends
        rcases List.mem_append.mp member with before | here
        · exact inv.right request before
        · obtain rfl := List.mem_singleton.mp here
          obtain ⟨connected, held⟩ := session_of_sends sends
          exact ⟨connected, inv.same held connected⟩
      · exact inv.right request member

/-- Along every run that stores check-in states while connected, and with one held
connects to no other server, each check-in request goes to the server its baseline
was stored from. -/
theorem checkins_reach_their_server {s : Tracked} (reached : Runs.Reaches Step Keeps {} s) :
    ∀ request ∈ s.sent, request.Right := by
  have inv : Inv s := by
    refine reached.invariant ⟨?_, ?_, ?_⟩ inv_step
    · intro held
      cases held
    · intro held
      cases held
    · intro request member
      cases member
  exact inv.right

/-- The server accepts. -/
def accept (_ : Json) : Except String Json := .ok (.obj [("ok", .bool true)])

def connectTo (host : String) : Op := .connectToServer host 13100 "user" "secret" (.ok ()) accept

def storeItem : Op := .storeCheckinState {} "r" "/" "prog"

def checkinNothing : Op := .checkin {} {} "note" accept

/-- Connect, import, disconnect, connect to the same server again and check in. -/
theorem reconnected_checkin_reaches_its_server :
    let s := apply (apply (apply (apply (apply {} (connectTo "a")) storeItem) .disconnectFromServer)
      (connectTo "a")) checkinNothing
    s.sent = [⟨some ⟨"a", 13100⟩, some ⟨"a", 13100⟩⟩] ∧ ∀ request ∈ s.sent, request.Right := by
  refine ⟨by decide +kernel, checkins_reach_their_server ?_⟩
  refine .step (.step (.step (.step (.step .start ?_ rfl) ?_ rfl) ?_ rfl) ?_ rfl) ?_ rfl
  · intro held
    cases held
  · change GhidraConnection.session _ ≠ none
    decide +kernel
  · exact trivial
  · intro _ _
    decide +kernel
  · exact trivial

/-- Import from one server, connect to another one and check in there. -/
theorem checkin_reaches_another_server :
    let s := apply (apply (apply (apply {} (connectTo "a")) storeItem) (connectTo "b")) checkinNothing
    Runs.Reaches Step (fun _ _ => True) {} s ∧ s.sent = [⟨some ⟨"b", 13100⟩, some ⟨"a", 13100⟩⟩] ∧
      ¬ ∀ request ∈ s.sent, request.Right := by
  have sent : (apply (apply (apply (apply {} (connectTo "a")) storeItem) (connectTo "b")) checkinNothing).sent =
      [⟨some ⟨"b", 13100⟩, some ⟨"a", 13100⟩⟩] := by
    decide +kernel
  refine ⟨.step (.step (.step (.step .start ?_ rfl) ?_ rfl) ?_ rfl) ?_ rfl, sent, ?_⟩
  · exact trivial
  · exact trivial
  · exact trivial
  · exact trivial
  · rw [sent]
    intro right
    have same := (right _ (List.mem_singleton.mpr rfl)).2
    revert same
    decide

end ServerSession
end GhidraBridge
