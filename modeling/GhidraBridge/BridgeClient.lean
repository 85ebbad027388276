import GhidraBridge.CheckinJson
import GhidraBridge.Lib.Table
import GhidraBridge.Lib.Runs

/-! The client's end of the bridge's socket (`BridgeClient.cpp`): any number of
threads in `sendAsync`, the receive thread, and the thread that connects and
disconnects. Each step is what one of them does between two points where another
one may get in; the map of pending requests is only touched under its lock. The
data received is taken as the messages in it, a line that does not parse being
dropped. -/
namespace GhidraBridge
open Lib

/-- The callback of one call of `sendAsync`, with the request id the call was given. -/
structure ResponseCallback where
  call : Nat
  id : Int32
  deriving DecidableEq

/-- A thread in `sendAsync`. The callback is handed over when it is registered. -/
inductive Sender where
  | issued (cb : ResponseCallback)
  | registered (id : Int32)
  | failed (id : Int32)
  /-- The clean-up after a failed send has taken a callback out of the map. -/
  | holding (id : Int32) (cb : ResponseCallback)
  /-- `request.dump()` has thrown. The thread has left, and its callback stays in the map. -/
  | thrown (id : Int32)

/-- The receive thread, with the messages it has yet to dispatch. -/
inductive Receiver where
  | reading (queue : List Json)
  /-- `dispatch` has taken the callback out of the map. -/
  | holding (cb : ResponseCallback) (msg : Json) (queue : List Json)
  | ended

/-- The thread that connects and disconnects. A connect disconnects first. -/
inductive Control where
  | idle
  | stopped (thenConnect : Bool)
  | closed (thenConnect : Bool)
  | joined (thenConnect : Bool)
  /-- The map has been taken away, and these are left to be failed. -/
  | failing (thenConnect : Bool) (left : List (Int32 × ResponseCallback))
  | connecting
  | opened

/-- The members of the client, the threads on it, and what has happened so far: the
number of calls, the callbacks registered, the messages received and the callbacks
invoked. `mark` is how many were registered when the last disconnect began. -/
structure BridgeClient where
  sock : Bool := false
  running : Bool := false
  nextId : Int32 := 1
  pending : Table Int32 ResponseCallback := ∅
  senders : List Sender := []
  receiver : Option Receiver := none
  control : Control := .idle
  calls : Nat := 0
  registered : List ResponseCallback := []
  received : List Json := []
  invoked : List (ResponseCallback × Json) := []
  mark : Nat := 0

namespace BridgeClient

/-- `isConnected`. -/
def isConnected (s : BridgeClient) : Bool := s.sock

/-- The errors the client makes up itself. -/
def errorFor (id : Int32) (what : String) : Json :=
  .obj [("id", int32Json id), ("ok", .bool false), ("error", .str what)]

def sendFailed (id : Int32) : Json := errorFor id "send failed"

def disconnected (id : Int32) : Json := errorFor id "BridgeClient disconnected"

/-- `get<int>` of an id, which also takes a truth value. -/
def readId : Json → Option Int32
  | .int value => some (Int64.ofInt value).toInt32
  | .float truncated => some truncated.toInt32
  | .bool value => some (if value then 1 else 0)
  | _ => none

/-- The request a message answers. An event answers none, and neither does a message
whose id cannot be read. -/
def answeredId (msg : Json) : Option Int32 :=
  if msg.contains "event" then none else (msg.get? "id").bind readId

/-- What a thread does next. A sender is named by its place in the list. -/
inductive Act where
  /-- `fetch_add` on the next id. -/
  | issue
  | register (i : Nat)
  | dumpThrows (i : Nat)
  | send (i : Nat) (sent : Bool)
  | cleanUp (i : Nat)
  | failSend (i : Nat)
  | recv (msgs : List Json)
  | dispatch
  | deliver
  /-- `recv` returns nothing or an error, or the loop sees that it is to stop. -/
  | endLoop
  | disconnect (thenConnect : Bool)
  | close
  | join
  | swap
  | failPending
  | disconnected
  | connect (reached : Bool)
  | startLoop

/-- A step of the sender at a place, which leaves at most one sender there. -/
def replaceSender (s : BridgeClient) (i : Nat) (next : Option Sender) : List Sender :=
  next.toList ++ s.senders.eraseIdx i

/-- `m_pending[id] = std::move(callback)`. -/
def register (s : BridgeClient) (i : Nat) : Option BridgeClient :=
  match s.senders[i]? with
  | some (.issued cb) =>
    some
      { s with
        pending := s.pending.set cb.id cb
        registered := s.registered ++ [cb]
        senders := s.replaceSender i (some (.registered cb.id)) }
  | _ => none

def dumpThrows (s : BridgeClient) (i : Nat) : Option BridgeClient :=
  match s.senders[i]? with
  | some (.registered id) => some { s with senders := s.replaceSender i (some (.thrown id)) }
  | _ => none

/-- `sendRaw`, which fails on a closed socket. -/
def send (s : BridgeClient) (i : Nat) (sent : Bool) : Option BridgeClient :=
  match s.senders[i]? with
  | some (.registered id) =>
    if sent && !s.sock then none
    else some { s with senders := s.replaceSender i (if sent then none else some (.failed id)) }
  | _ => none

/-- The clean-up after a failed send takes whatever is registered under its id. -/
def cleanUp (s : BridgeClient) (i : Nat) : Option BridgeClient :=
  match s.senders[i]? with
  | some (.failed id) =>
    match s.pending.lookup id with
    | none => some { s with senders := s.replaceSender i none }
    | some cb =>
      some { s with pending := s.pending.erase id, senders := s.replaceSender i (some (.holding id cb)) }
  | _ => none

def failSend (s : BridgeClient) (i : Nat) : Option BridgeClient :=
  match s.senders[i]? with
  | some (.holding id cb) =>
    some { s with invoked := s.invoked ++ [(cb, sendFailed id)], senders := s.replaceSender i none }
  | _ => none

/-- `dispatch` up to the call. -/
def dispatch (s : BridgeClient) : Option BridgeClient :=
  match s.receiver with
  | some (.reading (msg :: queue)) =>
    match (answeredId msg).bind fun id => (s.pending.lookup id).map fun cb => (id, cb) with
    | none => some { s with receiver := some (.reading queue) }
    | some (id, cb) => some { s with pending := s.pending.erase id, receiver := some (.holding cb msg queue) }
  | _ => none

def step (s : BridgeClient) : Act → Option BridgeClient
  | .issue =>
    some
      { s with
        nextId := s.nextId + 1
        calls := s.calls + 1
        senders := .issued ⟨s.calls, s.nextId⟩ :: s.senders }
  | .register i => s.register i
  | .dumpThrows i => s.dumpThrows i
  | .send i sent => s.send i sent
  | .cleanUp i => s.cleanUp i
  | .failSend i => s.failSend i
  | .recv msgs =>
    match s.receiver with
    | some (.reading []) => some { s with receiver := some (.reading msgs), received := s.received ++ msgs }
    | _ => none
  | .dispatch => s.dispatch
  | .deliver =>
    match s.receiver with
    | some (.holding cb msg queue) =>
      some { s with invoked := s.invoked ++ [(cb, msg)], receiver := some (.reading queue) }
    | _ => none
  | .endLoop =>
    match s.receiver with
    | some (.reading []) => some { s with running := false, receiver := some .ended }
    | _ => none
  | .disconnect thenConnect =>
    match s.control with
    | .idle => some { s with running := false, control := .stopped thenConnect, mark := s.registered.length }
    | _ => none
  | .close =>
    match s.control with
    | .stopped thenConnect => some { s with sock := false, control := .closed thenConnect }
    | _ => none
  | .join =>
    match s.control, s.receiver with
    | .closed thenConnect, none => some { s with control := .joined thenConnect }
    | .closed thenConnect, some .ended => some { s with receiver := none, control := .joined thenConnect }
    | _, _ => none
  | .swap =>
    match s.control with
    | .joined thenConnect => some { s with pending := ∅, control := .failing thenConnect s.pending.items }
    | _ => none
  | .failPending =>
    match s.control with
    | .failing thenConnect ((id, cb) :: left) =>
      some
        { s with
          invoked := s.invoked ++ [(cb, BridgeClient.disconnected id)]
          control := .failing thenConnect left }
    | _ => none
  | .disconnected =>
    match s.control with
    | .failing thenConnect [] => some { s with control := if thenConnect then .connecting else .idle }
    | _ => none
  | .connect reached =>
    match s.control with
    | .connecting =>
      if reached then some { s with sock := true, running := true, control := .opened }
      else some { s with control := .idle }
    | _ => none
  | .startLoop =>
    match s.control with
    | .opened => some { s with receiver := some (.reading []), control := .idle }
    | _ => none

def Step (s : BridgeClient) (act : Act) (next : BridgeClient) : Prop := s.step act = some next

/-- The steps of a connect that reaches the bridge. -/
def connectActs : List Act :=
  [.disconnect true, .close, .join, .swap, .disconnected, .connect true, .startLoop]

/-- Everything a step can do, case by case. -/
inductive Did (s : BridgeClient) : Act → BridgeClient → Prop
  | issue :
    Did s .issue
      { s with
        nextId := s.nextId + 1
        calls := s.calls + 1
        senders := .issued ⟨s.calls, s.nextId⟩ :: s.senders }
  | register {i : Nat} {cb : ResponseCallback} (here : s.senders[i]? = some (.issued cb)) :
    Did s (.register i)
      { s with
        pending := s.pending.set cb.id cb
        registered := s.registered ++ [cb]
        senders := s.replaceSender i (some (.registered cb.id)) }
  | dumpThrows {i : Nat} {id : Int32} (here : s.senders[i]? = some (.registered id)) :
    Did s (.dumpThrows i) { s with senders := s.replaceSender i (some (.thrown id)) }
  | sent {i : Nat} {id : Int32} (here : s.senders[i]? = some (.registered id)) (opened : s.sock = true) :
    Did s (.send i true) { s with senders := s.replaceSender i none }
  | notSent {i : Nat} {id : Int32} (here : s.senders[i]? = some (.registered id)) :
    Did s (.send i false) { s with senders := s.replaceSender i (some (.failed id)) }
  | gone {i : Nat} {id : Int32} (here : s.senders[i]? = some (.failed id)) (gone : s.pending.lookup id = none) :
    Did s (.cleanUp i) { s with senders := s.replaceSender i none }
  | cleanUp {i : Nat} {id : Int32} {cb : ResponseCallback} (here : s.senders[i]? = some (.failed id))
      (found : s.pending.lookup id = some cb) :
    Did s (.cleanUp i)
      { s with pending := s.pending.erase id, senders := s.replaceSender i (some (.holding id cb)) }
  | failSend {i : Nat} {id : Int32} {cb : ResponseCallback} (here : s.senders[i]? = some (.holding id cb)) :
    Did s (.failSend i)
      { s with invoked := s.invoked ++ [(cb, sendFailed id)], senders := s.replaceSender i none }
  | recv {msgs : List Json} (reading : s.receiver = some (.reading [])) :
    Did s (.recv msgs) { s with receiver := some (.reading msgs), received := s.received ++ msgs }
  | unanswered {msg : Json} {queue : List Json} (reading : s.receiver = some (.reading (msg :: queue))) :
    Did s .dispatch { s with receiver := some (.reading queue) }
  | dispatch {msg : Json} {queue : List Json} {id : Int32} {cb : ResponseCallback}
      (reading : s.receiver = some (.reading (msg :: queue))) (answers : answeredId msg = some id)
      (found : s.pending.lookup id = some cb) :
    Did s .dispatch { s with pending := s.pending.erase id, receiver := some (.holding cb msg queue) }
  | deliver {cb : ResponseCallback} {msg : Json} {queue : List Json}
      (held : s.receiver = some (.holding cb msg queue)) :
    Did s .deliver { s with invoked := s.invoked ++ [(cb, msg)], receiver := some (.reading queue) }
  | endLoop (reading : s.receiver = some (.reading [])) :
    Did s .endLoop { s with running := false, receiver := some .ended }
  | disconnect {thenConnect : Bool} (idle : s.control = .idle) :
    Did s (.disconnect thenConnect)
      { s with running := false, control := .stopped thenConnect, mark := s.registered.length }
  | close {thenConnect : Bool} (stopped : s.control = .stopped thenConnect) :
    Did s .close { s with sock := false, control := .closed thenConnect }
  | join {thenConnect : Bool} (closed : s.control = .closed thenConnect)
      (finished : s.receiver = none ∨ s.receiver = some .ended) :
    Did s .join { s with receiver := none, control := .joined thenConnect }
  | swap {thenConnect : Bool} (joined : s.control = .joined thenConnect) :
    Did s .swap { s with pending := ∅, control := .failing thenConnect s.pending.items }
  | failPending {thenConnect : Bool} {id : Int32} {cb : ResponseCallback} {left : List (Int32 × ResponseCallback)}
      (failing : s.control = .failing thenConnect ((id, cb) :: left)) :
    Did s .failPending
      { s with
        invoked := s.invoked ++ [(cb, BridgeClient.disconnected id)]
        control := .failing thenConnect left }
  | disconnected {thenConnect : Bool} (failing : s.control = .failing thenConnect []) :
    Did s .disconnected { s with control := if thenConnect then .connecting else .idle }
  | connected (connecting : s.control = .connecting) :
    Did s (.connect true) { s with sock := true, running := true, control := .opened }
  | notConnected (connecting : s.control = .connecting) : Did s (.connect false) { s with control := .idle }
  | startLoop (opened : s.control = .opened) :
    Did s .startLoop { s with receiver := some (.reading []), control := .idle }

theorem did_of_dispatch {s next : BridgeClient} (taken : s.dispatch = some next) : Did s .dispatch next := by
  unfold BridgeClient.dispatch at taken
  split at taken
  · rename_i msg queue reading
    split at taken
    · cases taken
      exact .unanswered reading
    · rename_i id cb found
      cases taken
      obtain ⟨answered, answers, held⟩ := Option.bind_eq_some_iff.mp found
      obtain ⟨callback, held, same⟩ := Option.map_eq_some_iff.mp held
      cases same
      exact .dispatch reading answers held
  · cases taken

theorem did_of_send {s next : BridgeClient} {i : Nat} {sent : Bool} (taken : s.send i sent = some next) :
    Did s (.send i sent) next := by
  unfold BridgeClient.send at taken
  split at taken
  · rename_i id here
    cases sent with
    | false =>
      cases taken
      exact .notSent here
    | true =>
      rw [Bool.true_and] at taken
      split at taken
      · cases taken
      · rename_i opened
        cases taken
        exact .sent here (by simpa using opened)
  · cases taken

theorem did_of_cleanUp {s next : BridgeClient} {i : Nat} (taken : s.cleanUp i = some next) :
    Did s (.cleanUp i) next := by
  unfold BridgeClient.cleanUp at taken
  split at taken
  · rename_i id here
    split at taken
    · rename_i missing
      cases taken
      exact .gone here missing
    · rename_i cb found
      cases taken
      exact .cleanUp here found
  · cases taken

theorem Step.did {s next : BridgeClient} {act : Act} (taken : Step s act next) : Did s act next := by
  unfold Step BridgeClient.step at taken
  cases act with
  | issue =>
    cases taken
    exact .issue
  | register i =>
    dsimp only [BridgeClient.register] at taken
    split at taken <;> cases taken
    exact .register ‹_›
  | dumpThrows i =>
    dsimp only [BridgeClient.dumpThrows] at taken
    split at taken <;> cases taken
    exact .dumpThrows ‹_›
  | send i sent => exact did_of_send taken
  | cleanUp i => exact did_of_cleanUp taken
  | failSend i =>
    dsimp only [BridgeClient.failSend] at taken
    split at taken <;> cases taken
    exact .failSend ‹_›
  | recv msgs =>
    dsimp only at taken
    split at taken <;> cases taken
    exact .recv ‹_›
  | dispatch => exact did_of_dispatch taken
  | deliver =>
    dsimp only at taken
    split at taken <;> cases taken
    exact .deliver ‹_›
  | endLoop =>
    dsimp only at taken
    split at taken <;> cases taken
    exact .endLoop ‹_›
  | disconnect thenConnect =>
    dsimp only at taken
    split at taken <;> cases taken
    exact .disconnect ‹_›
  | close =>
    dsimp only at taken
    split at taken <;> cases taken
    exact .close ‹_›
  | join =>
    dsimp only at taken
    split at taken <;> cases taken
    · rename_i thenConnect closed finished
      have did := Did.join closed (.inl finished)
      rwa [← finished] at did
    · exact .join ‹_› (.inr ‹_›)
  | swap =>
    dsimp only at taken
    split at taken <;> cases taken
    exact .swap ‹_›
  | failPending =>
    dsimp only at taken
    split at taken <;> cases taken
    exact .failPending ‹_›
  | disconnected =>
    dsimp only at taken
    split at taken <;> cases taken
    exact .disconnected ‹_›
  | connect reached =>
    dsimp only at taken
    split at taken
    · split at taken <;> cases taken
      · rename_i connecting reached
        subst reached
        exact .connected connecting
      · rename_i connecting refused
        cases reached with
        | false => exact .notConnected connecting
        | true => exact absurd rfl refused
    · cases taken
  | startLoop =>
    dsimp only at taken
    split at taken <;> cases taken
    exact .startLoop ‹_›

end BridgeClient
end GhidraBridge
