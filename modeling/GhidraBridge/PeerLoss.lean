import Mathlib.Data.List.Perm.Basic
import GhidraBridge.BridgeClient

/-! A peer that goes away. The receive loop ends when the peer closes the stream, but
only stops running: the socket stays set and the requests pending stay pending, and
the socket is what `isConnected` looks at. As long as the loop is only ended by a
disconnect, a client without a loop is one that has been disconnected. -/
namespace GhidraBridge.PeerLoss
open Lib BridgeClient

/-! ## The connection to the bridge -/

/-- The client and the child process of `GhidraConnection`, with whether it runs. -/
structure BridgeLink where
  client : Option BridgeClient := none
  process : Option Bool := none

/-- A client of its own that has connected. -/
def freshClient : Option BridgeClient := connectActs.foldlM step {}

namespace BridgeLink

def isBridgeConnected (link : BridgeLink) (isLocal : Bool) : Bool :=
  match link.client with
  | none => false
  | some client => client.isConnected && !(isLocal && link.process == some false)

/-- `startLocalBridge`: `start` is what comes of finding the bridge and starting it,
`dial` what comes of connecting to it. -/
def startLocalBridge (link : BridgeLink) (start dial : Except String Unit) : (Bool × String) × BridgeLink :=
  if link.process == some true && link.client.any isConnected then ((true, ""), link)
  else
    match start with
    | .error what => ((false, what), {})
    | .ok () =>
      match dial with
      | .error what => ((false, what), {})
      | .ok () => ((true, ""), { client := freshClient, process := some true })

/-- `connectBridge`. A client that is replaced is disconnected as it goes. -/
def connectBridge (link : BridgeLink) (isLocal : Bool) (remoteHost : String) (port : Int32)
    (start dial : Except String Unit) : (Bool × String) × BridgeLink :=
  if link.isBridgeConnected isLocal then ((true, ""), link)
  else if isLocal then link.startLocalBridge start dial
  else
    match dial with
    | .error what =>
      ((false, "Cannot reach Ghidra bridge at " ++ remoteHost ++ ":" ++ toString port.toInt ++
        " — is start-bridge.sh running on the server? (" ++ what ++ ")"), { link with client := none })
    | .ok () => ((true, ""), { link with client := freshClient })

end BridgeLink

/-! ## The loop and the socket -/

/-- The receive loop has ended, or there is none. -/
def LoopOver (s : BridgeClient) : Prop := s.receiver = none ∨ s.receiver = some .ended

/-- The loop only ends after a disconnect has stopped it. -/
def EndsStopped (s : BridgeClient) (act : Act) : Prop := act = .endLoop → s.running = false

/-- A call of `sendAsync` that has registered this id and is not through. One that has
thrown never will be. -/
def InFlight (s : BridgeClient) (id : Int32) : Prop :=
  Sender.registered id ∈ s.senders ∨ Sender.failed id ∈ s.senders ∨ Sender.thrown id ∈ s.senders

/-- The part of a disconnect after the socket is closed. -/
def pastClose : Control → Bool
  | .closed _ | .joined _ | .failing _ _ | .connecting => true
  | .idle | .stopped _ | .opened => false

/-- Where the map has been taken away, and no connect has opened the socket again. -/
def pastSwap : Control → Bool
  | .failing _ _ | .connecting | .idle => true
  | .stopped _ | .closed _ | .joined _ | .opened => false

structure Linked (s : BridgeClient) : Prop where
  opened : s.control = .opened → s.running = true ∧ s.sock = true
  alive : s.control = .idle → s.sock = true → s.running = true ∧ ¬LoopOver s
  closed : pastClose s.control = true → s.sock = false
  pending : pastSwap s.control = true → s.sock = false → ∀ id cb, s.pending.lookup id = some cb → InFlight s id

theorem linked_start : Linked {} where
  opened now := by cases now
  alive _ now := by cases now
  closed now := by cases now
  pending _ _ _ _ found := by cases found

/-- A sender's step loses no other sender. -/
theorem mem_replaceSender {s : BridgeClient} {i : Nat} {sender other : Sender} (after : Option Sender)
    (here : s.senders[i]? = some sender) (there : other ∈ s.senders) (others : other ≠ sender) :
    other ∈ s.replaceSender i after := by
  obtain ⟨inside, rfl⟩ := List.getElem?_eq_some_iff.mp here
  have walked := (List.getElem_cons_eraseIdx_perm inside).mem_iff.mpr there
  rcases List.mem_cons.mp walked with same | left
  · exact absurd same others
  · exact List.mem_append_right _ left

theorem InFlight.kept {s : BridgeClient} {i : Nat} {sender : Sender} {id : Int32} (flying : InFlight s id)
    (after : Option Sender) (here : s.senders[i]? = some sender) (notRegistered : sender ≠ .registered id)
    (notFailed : sender ≠ .failed id) (notThrown : sender ≠ .thrown id) :
    InFlight { s with senders := s.replaceSender i after } id := by
  rcases flying with registered | failed | thrown
  · exact .inl (mem_replaceSender after here registered (Ne.symm notRegistered))
  · exact .inr (.inl (mem_replaceSender after here failed (Ne.symm notFailed)))
  · exact .inr (.inr (mem_replaceSender after here thrown (Ne.symm notThrown)))

/-- A step of the receive thread that is not its last. -/
theorem Linked.receives {s : BridgeClient} (linked : Linked s) {receiver : Receiver} (goesOn : receiver ≠ .ended)
    (received : List Json) (invoked : List (ResponseCallback × Json)) :
    Linked { s with receiver := some receiver, received := received, invoked := invoked } where
  opened := linked.opened
  alive idle connected := by
    refine ⟨(linked.alive idle connected).1, ?_⟩
    rintro (none | ended)
    · cases none
    · exact goesOn (Option.some.inj ended)
  closed := linked.closed
  pending := linked.pending

/-- A disconnect under way, or a connect that has not opened the socket. -/
theorem linked_underWay {s : BridgeClient} (notOpened : s.control ≠ .opened) (notIdle : s.control ≠ .idle)
    (closed : pastClose s.control = true → s.sock = false)
    (pending : pastSwap s.control = true → ∀ id cb, s.pending.lookup id = some cb → InFlight s id) : Linked s where
  opened now := absurd now notOpened
  alive now := absurd now notIdle
  closed := closed
  pending settled _ := pending settled

/-- The socket is closed, and whatever is pending is cleaned up by its sender. -/
theorem linked_shut {s : BridgeClient} (notOpened : s.control ≠ .opened) (shut : s.sock = false)
    (pending : ∀ id cb, s.pending.lookup id = some cb → InFlight s id) : Linked s where
  opened now := absurd now notOpened
  alive _ connected := by
    rw [shut] at connected
    cases connected
  closed _ := shut
  pending _ _ := pending

theorem step_linked {s next : BridgeClient} {act : Act} (linked : Linked s) (allowed : EndsStopped s act)
    (taken : Step s act next) : Linked next := by
  cases taken.did with
  | issue =>
    refine { linked with pending := fun settled shut id cb found => ?_ }
    exact (linked.pending settled shut id cb found).imp (List.mem_cons_of_mem _)
      (Or.imp (List.mem_cons_of_mem _) (List.mem_cons_of_mem _))
  | @register i own here =>
    refine { linked with pending := fun settled shut id cb found => ?_ }
    rw [Table.lookup_set] at found
    split at found
    · rename_i same
      subst same
      exact .inl (List.mem_append_left _ List.mem_cons_self)
    · exact (linked.pending settled shut id cb found).kept _ here (by simp) (by simp) (by simp)
  | @dumpThrows i own here =>
    refine { linked with pending := fun settled shut id cb found => ?_ }
    by_cases same : own = id
    · subst same
      exact .inr (.inr (List.mem_append_left _ List.mem_cons_self))
    · exact (linked.pending settled shut id cb found).kept _ here (by simpa using same) (by simp) (by simp)
  | sent here connected =>
    refine { linked with pending := fun settled shut => ?_ }
    rw [connected] at shut
    cases shut
  | @notSent i own here =>
    refine { linked with pending := fun settled shut id cb found => ?_ }
    by_cases same : own = id
    · subst same
      exact .inr (.inl (List.mem_append_left _ List.mem_cons_self))
    · exact (linked.pending settled shut id cb found).kept _ here (by simpa using same) (by simp) (by simp)
  | @gone i own here gone =>
    refine { linked with pending := fun settled shut id cb found => ?_ }
    have other : own ≠ id := by
      rintro rfl
      rw [gone] at found
      cases found
    exact (linked.pending settled shut id cb found).kept _ here (by simp) (by simpa using other) (by simp)
  | @cleanUp i own held here found =>
    refine { linked with pending := fun settled shut id cb found => ?_ }
    obtain ⟨other, found⟩ := Table.of_lookup_erase found
    exact (linked.pending settled shut id cb found).kept _ here (by simp) (by simpa using other.symm) (by simp)
  | failSend here =>
    refine { linked with pending := fun settled shut id cb found => ?_ }
    exact (linked.pending settled shut id cb found).kept _ here (by simp) (by simp) (by simp)
  | recv reading => exact linked.receives (by simp) _ _
  | unanswered reading => exact linked.receives (by simp) _ _
  | @dispatch msg queue id own reading answers found =>
    have taken : Linked { s with pending := s.pending.erase id } :=
      { linked with
        pending := fun settled shut id cb held => linked.pending settled shut id cb (Table.of_lookup_erase held).2 }
    exact taken.receives (by simp) _ _
  | deliver held => exact linked.receives (by simp) _ _
  | endLoop reading =>
    -- the loop was stopped before, so the socket of an idle client is closed
    have stopped := allowed rfl
    refine { linked with opened := fun now => ?_, alive := fun idle connected => ?_ }
    · rw [(linked.opened now).1] at stopped
      cases stopped
    · rw [(linked.alive idle connected).1] at stopped
      cases stopped
  | disconnect idle => exact linked_underWay (by simp) (by simp) (fun now => by cases now) fun now => by cases now
  | close stopped => exact linked_underWay (by simp) (by simp) (fun _ => rfl) fun now => by cases now
  | join closed =>
    exact linked_underWay (by simp) (by simp) (fun _ => linked.closed (by rw [closed]; rfl)) fun now => by cases now
  | swap joined => exact linked_shut (by simp) (linked.closed (by rw [joined]; rfl)) fun _ _ found => by cases found
  | failPending failing =>
    have shut := linked.closed (by rw [failing]; rfl)
    exact linked_shut (by simp) shut (linked.pending (by rw [failing]; rfl) shut)
  | @disconnected thenConnect failing =>
    have shut := linked.closed (by rw [failing]; rfl)
    exact linked_shut (by cases thenConnect <;> simp) shut (linked.pending (by rw [failing]; rfl) shut)
  | notConnected connecting =>
    have shut := linked.closed (by rw [connecting]; rfl)
    exact linked_shut (by simp) shut (linked.pending (by rw [connecting]; rfl) shut)
  | connected connecting =>
    exact
      { opened := fun _ => ⟨rfl, rfl⟩
        alive := fun now => by cases now
        closed := fun now => by cases now
        pending := fun now => by cases now }
  | startLoop opened =>
    obtain ⟨running, connected⟩ := linked.opened opened
    refine
      { opened := fun now => by cases now
        alive := fun _ _ => ⟨running, by simp [LoopOver]⟩
        closed := fun now => by cases now
        pending := fun _ shut => ?_ }
    rw [connected] at shut
    cases shut

theorem isConnected_of_loopOver {s : BridgeClient} (linked : Linked s) (idle : s.control = .idle)
    (loopOver : LoopOver s) : s.isConnected = false := by
  cases connected : s.sock with
  | false => exact connected
  | true => exact absurd loopOver (linked.alive idle connected).2

/-- What is pending without a loop belongs to a call of `sendAsync` that is not through. -/
theorem inFlight_of_loopOver {s : BridgeClient} (linked : Linked s) (idle : s.control = .idle) (loopOver : LoopOver s)
    (id : Int32) (cb : ResponseCallback) (found : s.pending.lookup id = some cb) : InFlight s id :=
  linked.pending (by rw [idle]; rfl) (isConnected_of_loopOver linked idle loopOver) id cb found

theorem pending_of_loopOver {s : BridgeClient} (linked : Linked s) (idle : s.control = .idle) (loopOver : LoopOver s)
    (sent : s.senders = []) : s.pending = ∅ := by
  refine Table.eq_empty_of_lookup fun id => ?_
  cases found : s.pending.lookup id with
  | none => rfl
  | some cb =>
    have flying := inFlight_of_loopOver linked idle loopOver id cb found
    simp [InFlight, sent] at flying

theorem freshClient_alive {client : BridgeClient} (fresh : freshClient = some client) : ¬LoopOver client := by
  cases fresh
  simp [LoopOver]

/-- A client without a loop that no connect or disconnect is under way on is not
connected, and has nothing pending but what a call of `sendAsync` under way is about to
clean up or has left by throwing; and in remote mode the bridge is only reported connected through a client
whose loop is alive. -/
theorem lost_peer_noticed {s : BridgeClient} (reached : Runs.Reaches Step EndsStopped {} s)
    (idle : s.control = .idle) :
    (LoopOver s →
        s.isConnected = false ∧ (∀ id cb, s.pending.lookup id = some cb → InFlight s id) ∧
          (s.senders = [] → s.pending = ∅)) ∧
      ∀ process remoteHost port start dial,
        (BridgeLink.connectBridge ⟨some s, process⟩ false remoteHost port start dial).1.1 = true →
          ∃ client,
            (BridgeLink.connectBridge ⟨some s, process⟩ false remoteHost port start dial).2.client = some client ∧
              ¬LoopOver client := by
  have linked := reached.invariant linked_start fun _ _ _ linked allowed taken => step_linked linked allowed taken
  constructor
  · intro loopOver
    exact
      ⟨isConnected_of_loopOver linked idle loopOver, inFlight_of_loopOver linked idle loopOver,
        pending_of_loopOver linked idle loopOver⟩
  intro process remoteHost port start dial
  unfold BridgeLink.connectBridge
  split
  · rename_i connected
    intro _
    refine ⟨s, rfl, fun loopOver => ?_⟩
    have shut := isConnected_of_loopOver linked idle loopOver
    simp [BridgeLink.isBridgeConnected, shut] at connected
  · cases dial with
    | error what =>
      intro refused
      cases refused
    | ok _ =>
      intro _
      exact ⟨_, rfl, freshClient_alive rfl⟩

theorem disconnected_client_noticed :
    ∃ s, Runs.Reaches Step EndsStopped {} s ∧ s.control = .idle ∧ LoopOver s ∧
      s.invoked = [(⟨0, 1⟩, BridgeClient.disconnected 1)] ∧ s.isConnected = false ∧ s.pending = ∅ := by
  let sending : List Act := connectActs ++ [.issue, .register 0, .send 0 true, .disconnect false]
  let closing : List Act := [.close, .join, .swap, .failPending, .disconnected]
  have sendingOn : ∀ s, ∀ act ∈ sending, EndsStopped s act := by
    rintro s act there rfl
    simp [sending, connectActs] at there
  have closingOn : ∀ s, ∀ act ∈ closing, EndsStopped s act := by
    rintro s act there rfl
    simp [closing] at there
  have sent : Runs.Reaches Step EndsStopped {} _ :=
    Runs.Reaches.start.foldlM sendingOn (rfl : sending.foldlM step {} = some _)
  have ended : Runs.Reaches Step EndsStopped {} _ := .step sent (fun _ => rfl) (rfl : step _ .endLoop = some _)
  have closed : Runs.Reaches Step EndsStopped {} _ := ended.foldlM closingOn (rfl : closing.foldlM step _ = some _)
  obtain ⟨shut, -, empty⟩ := (lost_peer_noticed closed rfl).1 (.inl rfl)
  exact ⟨_, closed, rfl, .inl rfl, rfl, shut, empty rfl⟩

/-- The peer goes away while a request is outstanding: the loop ends, the client still
is connected with the request pending, and connecting again returns at once. -/
theorem closed_stream_not_noticed :
    ∃ s, Runs.Reaches Step (fun _ _ => True) {} s ∧ s.control = .idle ∧ s.senders = [] ∧ s.receiver = some .ended ∧
      s.isConnected = true ∧ s.pending.lookup 1 = some ⟨0, 1⟩ ∧ s.invoked = [] ∧
      BridgeLink.connectBridge ⟨some s, none⟩ false "server" 13100 (.ok ()) (.ok ()) =
        ((true, ""), ⟨some s, none⟩) := by
  let acts : List Act := connectActs ++ [.issue, .register 0, .send 0 true, .endLoop]
  have ended : Runs.Reaches Step (fun _ _ => True) {} _ :=
    Runs.Reaches.start.foldlM (fun _ _ _ => trivial) (rfl : acts.foldlM step {} = some _)
  exact ⟨_, ended, rfl, rfl, rfl, rfl, rfl, rfl, rfl⟩

end GhidraBridge.PeerLoss
