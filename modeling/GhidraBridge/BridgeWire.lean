import GhidraBridge.RequestLoop
import GhidraBridge.BridgeClient

/-! The client and the bridge with the sockets between them. Each connect opens a wire
of its own, with a session of its own behind it. A send puts a line on the newest wire;
a send that fails may have put a piece of one there, which the next line then runs
into. Any number of threads send, and the bridge works off each wire and pushes events
at its own pace. -/
namespace GhidraBridge
open Lib SessionAgreement RequestLoop

/-- A line worked off, with what the server answered and the lines it led to. -/
structure ServedLine where
  line : Option Json
  server : ServerAnswers
  written : List Json

/-- A socket with the bridge connection behind it. A line that will not parse is `none`. -/
structure Wire where
  session : BridgeState := {}
  /-- The whole lines under way to the bridge. -/
  input : List (Option Json) := []
  /-- What has been sent of a line whose end was never sent. -/
  piece : Option (Option Json) := none
  /-- The lines under way to the client. -/
  output : List Json := []
  served : List ServedLine := []
  ended : Bool := false

namespace Wire

/-- A line runs into the piece before it, and the two together do not parse. -/
def send (wire : Wire) (line : Option Json) : Wire :=
  { wire with input := wire.input ++ [if wire.piece.isSome then none else line], piece := none }

def sendPiece (wire : Wire) (piece : Option Json) : Wire :=
  { wire with piece := some (if wire.piece.isSome then none else piece) }

/-- The bridge reads a line and answers it. -/
def handle (bridgeProjectPath : String) (wire : Wire) (server : ServerAnswers) : Option Wire :=
  match wire.input with
  | [] => none
  | line :: rest =>
    let handled := handleRequest bridgeProjectPath wire.session line server
    some
      { wire with
        session := handled.1
        input := rest
        output := wire.output ++ handled.2
        served := wire.served ++ [{ line, server, written := handled.2 }] }

/-- `pushEvent`. -/
def event (wire : Wire) (msg : Json) : Option Wire :=
  if msg.contains "event" then some { wire with output := wire.output ++ [msg] } else none

/-- At the end of the stream what is left of a line is read as one. -/
def endOfStream (wire : Wire) : Wire := { wire with input := wire.input ++ wire.piece.toList, piece := none }

/-- The end of `run`. -/
def finish (wire : Wire) : Wire := { wire with session := wire.session.stopAllStreamers.disconnect, ended := true }

end Wire

/-- The client, the requests its calls were given, and its wires, the newest first. -/
structure WiredClient where
  client : BridgeClient := {}
  issued : List (ResponseCallback × Json) := []
  wires : List Wire := []
  /-- The ids of the requests whose line ran into a piece. -/
  garbled : List Int32 := []

namespace WiredClient

inductive Act where
  | issue (req : Json)
  | send (i : Nat)
  /-- A send that fails with nothing sent, or with a piece of the line, which may be all
  of it but its end. -/
  | sendFails (i : Nat) (piece : Option Bool)
  | recv (n : Nat)
  | connect
  /-- A step of the client that touches no wire. -/
  | client (act : BridgeClient.Act)
  | handle (k : Nat) (server : ServerAnswers)
  | event (k : Nat) (msg : Json)
  | endOfStream (k : Nat)
  | finish (k : Nat)

def isLocal : BridgeClient.Act → Bool
  | .issue | .send _ _ | .recv _ | .connect true => false
  | _ => true

/-- The line of a request. -/
def line (s : WiredClient) (id : Int32) : Option Json :=
  (s.issued.find? fun entry => entry.1.id = id).map fun entry => stamp id entry.2

def send (s : WiredClient) (i : Nat) : Option WiredClient :=
  match s.client.senders[i]?, s.wires with
  | some (.registered id), wire :: older =>
    (s.client.step (.send i true)).map fun client =>
      { s with
        client
        wires := wire.send (s.line id) :: older
        garbled := if wire.piece.isSome then id :: s.garbled else s.garbled }
  | _, _ => none

/-- Nothing goes out over a closed socket. -/
def sendFails (s : WiredClient) (i : Nat) (piece : Option Bool) : Option WiredClient :=
  match s.client.senders[i]? with
  | some (.registered id) =>
    (s.client.step (.send i false)).map fun client =>
      match s.client.sock, piece, s.wires with
      | true, some whole, wire :: older =>
        { s with client, wires := wire.sendPiece (if whole then s.line id else none) :: older }
      | _, _, _ => { s with client }
  | _ => none

def recv (s : WiredClient) (n : Nat) : Option WiredClient :=
  match s.wires with
  | [] => none
  | wire :: older =>
    (s.client.step (.recv (wire.output.take n))).map fun client =>
      { s with client, wires := { wire with output := wire.output.drop n } :: older }

/-- A step of the bridge connection behind a wire. -/
def onWire (s : WiredClient) (k : Nat) (step : Wire → Option Wire) : Option WiredClient :=
  match s.wires[k]? with
  | none => none
  | some wire => if wire.ended then none else (step wire).map fun next => { s with wires := s.wires.set k next }

/-- The client's end of the newest wire is open as long as its socket is. -/
def clientOpen (s : WiredClient) (k : Nat) : Bool := k = 0 && s.client.sock

section
variable (bridgeProjectPath : String)

def step (s : WiredClient) : Act → Option WiredClient
  | .issue req =>
    (s.client.step .issue).map fun client =>
      { s with client, issued := s.issued ++ [(⟨s.client.calls, s.client.nextId⟩, req)] }
  | .send i => s.send i
  | .sendFails i piece => s.sendFails i piece
  | .recv n => s.recv n
  | .connect => (s.client.step (.connect true)).map fun client => { s with client, wires := {} :: s.wires }
  | .client act => if isLocal act then (s.client.step act).map fun client => { s with client } else none
  | .handle k server => s.onWire k fun wire => wire.handle bridgeProjectPath server
  | .event k msg => s.onWire k fun wire => wire.event msg
  | .endOfStream k => if s.clientOpen k then none else s.onWire k fun wire => some wire.endOfStream
  | .finish k => s.onWire k fun wire => some wire.finish

def Step (s : WiredClient) (act : Act) (next : WiredClient) : Prop := s.step bridgeProjectPath act = some next

end

/-- The ids are 32-bit numbers, and the client starts over when they are used up. -/
def IdsLast (s : WiredClient) (_ : Act) : Prop := s.client.calls + 1 < 2 ^ 31

instance (s : WiredClient) (act : Act) : Decidable (IdsLast s act) :=
  inferInstanceAs (Decidable (s.client.calls + 1 < 2 ^ 31))

/-- The steps of a connect that reaches the bridge. -/
def connectActs : List Act :=
  [.client (.disconnect true), .client .close, .client .join, .client .swap, .client .disconnected, .connect,
    .client .startLoop]

/-- What a step does to the wires and to the client. -/
inductive Moved (bridgeProjectPath : String) (s : WiredClient) : WiredClient → Prop
  | issue {client : BridgeClient} (req : Json) (taken : BridgeClient.Step s.client .issue client) :
    Moved bridgeProjectPath s { s with client, issued := s.issued ++ [(⟨s.client.calls, s.client.nextId⟩, req)] }
  | send {client : BridgeClient} {i : Nat} {id : Int32} {wire : Wire} {older : List Wire}
      (here : s.client.senders[i]? = some (.registered id)) (wires : s.wires = wire :: older)
      (taken : BridgeClient.Step s.client (.send i true) client) :
    Moved bridgeProjectPath s
      { s with
        client
        wires := wire.send (s.line id) :: older
        garbled := if wire.piece.isSome then id :: s.garbled else s.garbled }
  | sendPiece {client : BridgeClient} {i : Nat} {id : Int32} {whole : Bool} {wire : Wire} {older : List Wire}
      (here : s.client.senders[i]? = some (.registered id)) (wires : s.wires = wire :: older)
      (taken : BridgeClient.Step s.client (.send i false) client) :
    Moved bridgeProjectPath s
      { s with client, wires := wire.sendPiece (if whole then s.line id else none) :: older }
  | recv {client : BridgeClient} {n : Nat} {wire : Wire} {older : List Wire} (wires : s.wires = wire :: older)
      (taken : BridgeClient.Step s.client (.recv (wire.output.take n)) client) :
    Moved bridgeProjectPath s { s with client, wires := { wire with output := wire.output.drop n } :: older }
  | connect {client : BridgeClient} (taken : BridgeClient.Step s.client (.connect true) client) :
    Moved bridgeProjectPath s { s with client, wires := {} :: s.wires }
  | client {client : BridgeClient} {act : BridgeClient.Act} (taken : BridgeClient.Step s.client act client)
      (quiet : isLocal act = true ∨ ∃ i, act = .send i false) : Moved bridgeProjectPath s { s with client }
  | bridge {k : Nat} {wire next : Wire} (here : s.wires[k]? = some wire) (open_ : wire.ended = false)
      (did : (∃ server, wire.handle bridgeProjectPath server = some next) ∨ (∃ msg, wire.event msg = some next) ∨
        (next = wire.endOfStream ∧ s.clientOpen k = false) ∨ next = wire.finish) :
    Moved bridgeProjectPath s { s with wires := s.wires.set k next }

variable {bridgeProjectPath : String} {s next : WiredClient} {act : Act}

theorem moved_onWire {k : Nat} {f : Wire → Option Wire} (taken : s.onWire k f = some next) :
    ∃ wire after, s.wires[k]? = some wire ∧ wire.ended = false ∧ f wire = some after ∧
      next = { s with wires := s.wires.set k after } := by
  unfold onWire at taken
  split at taken
  · cases taken
  · rename_i wire here
    split at taken
    · cases taken
    · rename_i going
      obtain ⟨after, did, rfl⟩ := Option.map_eq_some_iff.mp taken
      exact ⟨wire, after, here, by simpa using going, did, rfl⟩

theorem moved_sendFails {i : Nat} {piece : Option Bool} (taken : s.sendFails i piece = some next) :
    Moved bridgeProjectPath s next := by
  unfold sendFails at taken
  split at taken
  · rename_i id here
    obtain ⟨client, did, rfl⟩ := Option.map_eq_some_iff.mp taken
    split
    · rename_i whole wire older _ wires
      exact .sendPiece here wires did
    · exact .client did (.inr ⟨i, rfl⟩)
  · cases taken

theorem Step.moved (taken : Step bridgeProjectPath s act next) : Moved bridgeProjectPath s next := by
  unfold Step step at taken
  cases act with
  | issue req =>
    obtain ⟨client, did, rfl⟩ := Option.map_eq_some_iff.mp taken
    exact .issue req did
  | send i =>
    dsimp only [WiredClient.send] at taken
    split at taken
    · rename_i id wire older here wires
      obtain ⟨client, did, rfl⟩ := Option.map_eq_some_iff.mp taken
      exact .send here wires did
    · cases taken
  | sendFails i piece => exact moved_sendFails taken
  | recv n =>
    dsimp only [WiredClient.recv] at taken
    split at taken
    · cases taken
    · rename_i wire older wires
      obtain ⟨client, did, rfl⟩ := Option.map_eq_some_iff.mp taken
      exact .recv wires did
  | connect =>
    obtain ⟨client, did, rfl⟩ := Option.map_eq_some_iff.mp taken
    exact .connect did
  | client act =>
    dsimp only at taken
    split at taken
    · rename_i quiet
      obtain ⟨client, did, rfl⟩ := Option.map_eq_some_iff.mp taken
      exact .client did (.inl quiet)
    · cases taken
  | handle k server =>
    obtain ⟨wire, after, here, going, did, rfl⟩ := moved_onWire taken
    exact .bridge here going (.inl ⟨server, did⟩)
  | event k msg =>
    obtain ⟨wire, after, here, going, did, rfl⟩ := moved_onWire taken
    exact .bridge here going (.inr (.inl ⟨msg, did⟩))
  | endOfStream k =>
    dsimp only at taken
    split at taken
    · cases taken
    · rename_i closed
      obtain ⟨wire, after, here, going, did, rfl⟩ := moved_onWire taken
      cases did
      exact .bridge here going (.inr (.inr (.inl ⟨rfl, by simpa using closed⟩)))
  | finish k =>
    obtain ⟨wire, after, here, going, did, rfl⟩ := moved_onWire taken
    cases did
    exact .bridge here going (.inr (.inr (.inr rfl)))

end WiredClient
end GhidraBridge
