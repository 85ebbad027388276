import GhidraBridge.BridgeWire
import GhidraBridge.ResponseRouting

/-! Requests and responses from end to end. A request is one of a client's call until it
is sent, then a line on a wire, then one the bridge has worked off: it moves on and is
never copied, so none is worked off twice. As the ids are not given out again, what
comes back under an id was written for the request the id was given to. -/
namespace GhidraBridge.RequestDelivery
open Lib WiredClient SessionAgreement RequestLoop
open BridgeClient (answeredId readId sendFailed disconnected replaceSender Did)

/-! ## The callbacks of the client -/

/-- What holds of every callback that is somewhere in the client. -/
structure Every (P : ResponseCallback → Prop) (c : BridgeClient) : Prop where
  issued : ∀ cb, Sender.issued cb ∈ c.senders → P cb
  holding : ∀ id cb, Sender.holding id cb ∈ c.senders → P cb
  pending : ∀ id cb, c.pending.lookup id = some cb → P cb
  receiving : ∀ cb msg queue, c.receiver = some (.holding cb msg queue) → P cb
  failing : ∀ thenConnect left, c.control = .failing thenConnect left → ∀ entry ∈ left, P entry.2
  invoked : ∀ entry ∈ c.invoked, P entry.1

theorem mem_replaceSender {c : BridgeClient} {i : Nat} {after : Option Sender} {sender : Sender}
    (member : sender ∈ c.replaceSender i after) : after = some sender ∨ sender ∈ c.senders := by
  rcases List.mem_append.mp member with own | other
  · exact .inl (Option.mem_toList.mp own)
  · exact .inr (List.mem_of_mem_eraseIdx other)

/-- A sender's step keeps the callbacks of the other senders. -/
theorem Every.sends {P : ResponseCallback → Prop} {c : BridgeClient} (every : Every P c) {i : Nat}
    {after : Option Sender} (issuesNone : ∀ cb, after ≠ some (.issued cb))
    (own : ∀ id cb, after = some (.holding id cb) → P cb) : Every P { c with senders := c.replaceSender i after } :=
  { every with
    issued := fun cb member => every.issued cb ((mem_replaceSender member).resolve_left (issuesNone cb))
    holding := fun id cb member => (mem_replaceSender member).elim (own id cb) (every.holding id cb) }

theorem Every.invokes {P : ResponseCallback → Prop} {c : BridgeClient} (every : Every P c) {cb : ResponseCallback}
    (own : P cb) (msg : Json) : ∀ entry ∈ c.invoked ++ [(cb, msg)], P entry.1 := by
  intro entry member
  rcases List.mem_append.mp member with old | new
  · exact every.invoked entry old
  · cases List.mem_singleton.mp new
    exact own

/-- A step takes the callbacks from one place to another; only a call brings a new one. -/
theorem step_every {P : ResponseCallback → Prop} {c next : BridgeClient} {act : BridgeClient.Act} (every : Every P c)
    (did : Did c act next) (new : act = .issue → P ⟨c.calls, c.nextId⟩) : Every P next := by
  cases did with
  | issue =>
    refine { every with issued := fun cb member => ?_, holding := fun id cb member => ?_ }
    · rcases List.mem_cons.mp member with own | other
      · cases own
        exact new rfl
      · exact every.issued cb other
    · exact every.holding id cb ((List.mem_cons.mp member).resolve_left nofun)
  | @register i cb here =>
    refine { every.sends (by simp) (by simp) with pending := fun id found held => ?_ }
    rw [Table.lookup_set] at held
    split at held
    · cases held
      exact every.issued cb (List.mem_of_getElem? here)
    · exact every.pending id found held
  | dumpThrows | sent | notSent | gone => exact every.sends (by simp) (by simp)
  | @cleanUp i id cb here found =>
    refine { every.sends (by simp) (fun _ _ same => ?_) with pending := fun other cb held => ?_ }
    · cases same
      exact every.pending id cb found
    · exact every.pending other cb (Table.of_lookup_erase held).2
  | @failSend i id cb here =>
    exact { every.sends (by simp) (by simp) with
      invoked := every.invokes (every.holding id cb (List.mem_of_getElem? here)) _ }
  | recv reading | unanswered reading | endLoop reading => exact { every with receiving := fun _ _ _ => nofun }
  | @dispatch msg queue id cb reading answers found =>
    refine
      { every with
        pending := fun other cb held => every.pending other cb (Table.of_lookup_erase held).2
        receiving := fun _ _ _ now => ?_ }
    cases now
    exact every.pending id cb found
  | deliver held =>
    exact
      { every with
        receiving := fun _ _ _ => nofun
        invoked := every.invokes (every.receiving _ _ _ held) _ }
  | disconnect idle => exact { every with failing := fun _ _ => nofun }
  | close stopped => exact { every with failing := fun _ _ => nofun }
  | join closed =>
    exact { every with receiving := fun _ _ _ => nofun, failing := fun _ _ => nofun }
  | swap joined =>
    refine { every with pending := fun _ _ => nofun, failing := fun _ _ now entry member => ?_ }
    cases now
    exact every.pending entry.1 entry.2 (Table.mem_items.mp member)
  | @failPending thenConnect id cb left failing =>
    refine
      { every with
        failing := fun _ _ now entry member => ?_
        invoked := every.invokes (every.failing _ _ failing (id, cb) List.mem_cons_self) _ }
    cases now
    exact every.failing _ _ failing entry (List.mem_cons_of_mem _ member)
  | @disconnected thenConnect failing =>
    refine { every with failing := fun _ _ now => ?_ }
    cases thenConnect <;> cases now
  | connected connecting => exact { every with failing := fun _ _ => nofun }
  | notConnected connecting => exact { every with failing := fun _ _ => nofun }
  | startLoop opened =>
    exact { every with receiving := fun _ _ _ => nofun, failing := fun _ _ => nofun }

theorem Every.mono {P Q : ResponseCallback → Prop} {c : BridgeClient} (every : Every P c) (weaker : ∀ cb, P cb → Q cb) :
    Every Q c where
  issued cb member := weaker cb (every.issued cb member)
  holding id cb member := weaker cb (every.holding id cb member)
  pending id cb held := weaker cb (every.pending id cb held)
  receiving cb msg queue now := weaker cb (every.receiving cb msg queue now)
  failing thenConnect left now entry member := weaker _ (every.failing thenConnect left now entry member)
  invoked entry member := weaker _ (every.invoked entry member)

/-- Only a call gives out an id. -/
theorem numbers_of_did {c next : BridgeClient} {act : BridgeClient.Act} (did : Did c act next) (other : act ≠ .issue) :
    next.calls = c.calls ∧ next.nextId = c.nextId := by
  cases did with
  | issue => exact absurd rfl other
  | _ => exact ⟨rfl, rfl⟩

/-- Only `recv` brings messages. -/
theorem received_of_did {c next : BridgeClient} {act : BridgeClient.Act} (did : Did c act next) :
    (∃ msgs, act = .recv msgs ∧ next.received = c.received ++ msgs) ∨
      (∀ msgs, act ≠ .recv msgs) ∧ next.received = c.received := by
  cases did with
  | @recv msgs => exact .inl ⟨msgs, rfl, rfl⟩
  | _ => exact .inr ⟨nofun, rfl⟩

theorem not_issue {act : BridgeClient.Act} (quiet : isLocal act = true ∨ ∃ i, act = .send i false) : act ≠ .issue := by
  rintro rfl
  rcases quiet with quiet | ⟨i, same⟩
  · cases quiet
  · cases same

/-! ## Ids -/

/-- The id of a call. -/
def callId (call : Nat) : Int32 := Int32.ofNat (call + 1)

theorem callId_toInt {call : Nat} (few : call + 1 < 2 ^ 31) : (callId call).toInt = call + 1 := by
  rw [callId, Int32.toInt_ofNat_of_lt few]
  rfl

theorem callId_inj {first second : Nat} (few : first + 1 < 2 ^ 31) (too : second + 1 < 2 ^ 31)
    (same : callId first = callId second) : first = second := by
  have equal := congrArg Int32.toInt same
  rw [callId_toInt few, callId_toInt too] at equal
  omega

/-- A request that cannot be read is not answered under the id of any call. -/
theorem callId_ne_neg_one {call : Nat} (few : call + 1 < 2 ^ 31) : callId call ≠ -1 := by
  intro same
  have equal := congrArg Int32.toInt same
  rw [callId_toInt few] at equal
  have negative : (-1 : Int32).toInt = -1 := by decide
  omega

/-- The calls are numbered one after the other, and a call has one request. -/
structure Numbered (s : WiredClient) : Prop where
  few : s.client.calls < 2 ^ 31
  next : s.client.nextId = callId s.client.calls
  id : ∀ entry ∈ s.issued, entry.1.call < s.client.calls ∧ entry.1.id = callId entry.1.call
  one : ∀ entry ∈ s.issued, ∀ other ∈ s.issued, entry.1.call = other.1.call → entry = other

/-- No id is given out twice. -/
theorem Numbered.same {s : WiredClient} (numbered : Numbered s) {entry other : ResponseCallback × Json}
    (member : entry ∈ s.issued) (too : other ∈ s.issued) (same : entry.1.id = other.1.id) : entry = other := by
  obtain ⟨within, id⟩ := numbered.id entry member
  obtain ⟨otherWithin, otherId⟩ := numbered.id other too
  refine numbered.one entry member other too (callId_inj ?_ ?_ (by rw [← id, ← otherId, same]))
  · have few := numbered.few
    omega
  · have few := numbered.few
    omega

theorem Numbered.fresh {s : WiredClient} (numbered : Numbered s) (more : s.client.calls + 1 < 2 ^ 31)
    {entry : ResponseCallback × Json} (member : entry ∈ s.issued) : entry.1.id ≠ s.client.nextId := by
  obtain ⟨within, id⟩ := numbered.id entry member
  intro same
  rw [id, numbered.next] at same
  have equal := callId_inj (by omega) more same
  omega

theorem step_numbered_same {s : WiredClient} {c : BridgeClient} {wires : List Wire} {garbled : List Int32}
    (numbered : Numbered s) (calls : c.calls = s.client.calls) (nextId : c.nextId = s.client.nextId) :
    Numbered { s with client := c, wires := wires, garbled := garbled } where
  few := calls ▸ numbered.few
  next := by
    rw [nextId, calls]
    exact numbered.next
  id entry member := by
    rw [calls]
    exact numbered.id entry member
  one := numbered.one

section
variable {bridgeProjectPath : String} {s next : WiredClient}

theorem step_numbered (numbered : Numbered s) (more : s.client.calls + 1 < 2 ^ 31)
    (moved : Moved bridgeProjectPath s next) : Numbered next := by
  cases moved with
  | issue req taken =>
    cases taken.did
    refine ⟨more, ?_, fun entry member => ?_, fun entry member other too same => ?_⟩
    · rw [numbered.next, callId, callId, Int32.ofNat_add (s.client.calls + 1)]
      rfl
    · rcases List.mem_append.mp member with old | new
      · obtain ⟨within, id⟩ := numbered.id entry old
        exact ⟨Nat.lt_succ_of_lt within, id⟩
      · cases List.mem_singleton.mp new
        exact ⟨Nat.lt_succ_self _, numbered.next⟩
    · rcases List.mem_append.mp member with old | new
      · rcases List.mem_append.mp too with otherOld | otherNew
        · exact numbered.one entry old other otherOld same
        · cases List.mem_singleton.mp otherNew
          exact absurd same (numbered.id entry old).1.ne
      · cases List.mem_singleton.mp new
        rcases List.mem_append.mp too with otherOld | otherNew
        · exact absurd same.symm (numbered.id other otherOld).1.ne
        · exact (List.mem_singleton.mp otherNew).symm
  | send here wires taken | sendPiece here wires taken | recv wires taken | connect taken =>
    obtain ⟨calls, nextId⟩ := numbers_of_did taken.did nofun
    exact step_numbered_same numbered calls nextId
  | client taken quiet =>
    obtain ⟨calls, nextId⟩ := numbers_of_did taken.did (not_issue quiet)
    exact step_numbered_same numbered calls nextId
  | bridge here going did => exact step_numbered_same numbered rfl rfl

end

/-! ## One copy of a request -/

/-- The ids of the requests a sender has yet to send. -/
def unsent : Sender → List Int32
  | .issued cb => [cb.id]
  | .registered id => [id]
  | .failed _ | .holding _ _ | .thrown _ => []

def unsentIds (c : BridgeClient) : List Int32 := c.senders.flatMap unsent

def lineIds (lines : List (Option Json)) : List Int32 := lines.filterMap (Option.map requestId)

/-- The lines that have gone over a wire and are under way or worked off. -/
def carried (wire : Wire) : List (Option Json) :=
  wire.input ++ wire.piece.toList ++ wire.served.map ServedLine.line

def carriedIds (wires : List Wire) : List Int32 := wires.flatMap fun wire => lineIds (carried wire)

/-- A request is unsent or on a wire, and not both or twice. -/
def Single (s : WiredClient) : Prop :=
  ∀ id, (unsentIds s.client).count id + (carriedIds s.wires).count id ≤
    if id ∈ s.issued.map fun entry => entry.1.id then 1 else 0

theorem count_replaceSender {c : BridgeClient} {i : Nat} {sender : Sender} (here : c.senders[i]? = some sender)
    (after : Option Sender) (id : Int32) :
    ((c.replaceSender i after).flatMap unsent).count id + (unsent sender).count id =
      (unsentIds c).count id + (after.toList.flatMap unsent).count id := by
  obtain ⟨inside, rfl⟩ := List.getElem?_eq_some_iff.mp here
  have walked := (List.getElem_cons_eraseIdx_perm inside).flatMap_right unsent
  rw [List.flatMap_cons] at walked
  rw [unsentIds, ← walked.count_eq, replaceSender, List.flatMap_append, List.count_append, List.count_append]
  omega

/-- What has been sent, or failed to be, is not unsent any more. -/
theorem count_unsent_send {c next : BridgeClient} {i : Nat} {sent : Bool} {id : Int32}
    (here : c.senders[i]? = some (.registered id)) (taken : BridgeClient.Step c (.send i sent) next) (probe : Int32) :
    (unsentIds next).count probe + [id].count probe = (unsentIds c).count probe := by
  have replaced (after : Option Sender) := count_replaceSender here after probe
  cases taken.did with
  | sent => exact replaced none
  | notSent => exact replaced (some (.failed _))

/-- No step of the client but a call adds an unsent request. -/
theorem count_unsent_le {c next : BridgeClient} {act : BridgeClient.Act} (did : Did c act next) (other : act ≠ .issue)
    (id : Int32) : (unsentIds next).count id ≤ (unsentIds c).count id := by
  have fewer {i : Nat} {sender : Sender} {after : Option Sender} (here : c.senders[i]? = some sender)
      (given : (after.toList.flatMap unsent).count id ≤ (unsent sender).count id) :
      ((c.replaceSender i after).flatMap unsent).count id ≤ (unsentIds c).count id := by
    have replaced := count_replaceSender here after id
    omega
  cases did with
  | issue => exact absurd rfl other
  | register here => exact fewer here (Nat.le_refl _)
  | dumpThrows here | sent here | notSent here => exact fewer here (Nat.zero_le _)
  | gone here | cleanUp here | failSend here => exact fewer here (Nat.le_refl _)
  | _ => exact Nat.le_refl _

theorem requestId_stamp (id : Int32) (req : Json) : requestId (stamp id req) = id := by
  have read : (int32Json id).getAsInt = some id := Json.getAsInt_toInt id
  have member : (stamp id req).get? "id" = some (int32Json id) := rfl
  rw [requestId, member, Option.bind_some, read]
  rfl

/-- The line of a request carries its own id. -/
theorem lineIds_line (s : WiredClient) (id probe : Int32) : (lineIds [s.line id]).count probe ≤ [id].count probe := by
  unfold WiredClient.line
  cases found : s.issued.find? fun entry => entry.1.id = id with
  | none => exact Nat.zero_le _
  | some entry =>
    have same : lineIds [some (stamp id entry.2)] = [id] := by
      rw [lineIds, List.filterMap_cons, Option.map_some, requestId_stamp]
      rfl
    rw [Option.map_some, same]

theorem lineIds_append (first second : List (Option Json)) :
    lineIds (first ++ second) = lineIds first ++ lineIds second := List.filterMap_append

/-- A line put on a wire is the only one added, and a piece before it is lost. -/
theorem count_send (wire : Wire) (line : Option Json) (id : Int32) :
    (lineIds (carried (wire.send line))).count id ≤ (lineIds (carried wire)).count id + (lineIds [line]).count id := by
  unfold carried Wire.send
  simp only [lineIds_append, List.count_append, Option.toList_none]
  split
  · have none : lineIds [(none : Option Json)] = [] := rfl
    have empty : lineIds ([] : List (Option Json)) = [] := rfl
    simp only [none, empty, List.count_nil]
    omega
  · have empty : lineIds ([] : List (Option Json)) = [] := rfl
    simp only [empty, List.count_nil]
    omega

theorem count_sendPiece (wire : Wire) (piece : Option Json) (id : Int32) :
    (lineIds (carried (wire.sendPiece piece))).count id ≤
      (lineIds (carried wire)).count id + (lineIds [piece]).count id := by
  unfold carried Wire.sendPiece
  simp only [lineIds_append, List.count_append, Option.toList_some]
  split
  · have none : lineIds [(none : Option Json)] = [] := rfl
    simp only [none, List.count_nil]
    omega
  · omega

/-- A step of a bridge connection. -/
def Bridged (bridgeProjectPath : String) (wire next : Wire) : Prop :=
  (∃ server, wire.handle bridgeProjectPath server = some next) ∨ (∃ msg, wire.event msg = some next) ∨
    next = wire.endOfStream ∨ next = wire.finish

theorem handle_eq {bridgeProjectPath : String} {wire next : Wire} {server : ServerAnswers}
    (handled : wire.handle bridgeProjectPath server = some next) :
    ∃ line rest, wire.input = line :: rest ∧
      next =
        { wire with
          session := (handleRequest bridgeProjectPath wire.session line server).1
          input := rest
          output := wire.output ++ (handleRequest bridgeProjectPath wire.session line server).2
          served := wire.served ++
            [{ line, server, written := (handleRequest bridgeProjectPath wire.session line server).2 }] } := by
  unfold Wire.handle at handled
  split at handled
  · cases handled
  · rename_i line rest input
    cases handled
    exact ⟨line, rest, input, rfl⟩

/-- The bridge takes a line from those under way to those worked off. -/
theorem carried_bridged {bridgeProjectPath : String} {wire next : Wire} (did : Bridged bridgeProjectPath wire next) :
    List.Perm (carried next) (carried wire) := by
  rcases did with ⟨server, handled⟩ | ⟨msg, pushed⟩ | rfl | rfl
  · obtain ⟨line, rest, input, rfl⟩ := handle_eq handled
    unfold carried
    rw [input, List.map_append, ← List.append_assoc, List.cons_append, List.cons_append]
    exact List.perm_append_singleton _ _
  · unfold Wire.event at pushed
    split at pushed
    · cases pushed
      exact .refl _
    · cases pushed
  · unfold carried Wire.endOfStream
    rw [Option.toList_none, List.append_nil]
  · exact .refl _

theorem carriedIds_set {wires : List Wire} {k : Nat} {wire next : Wire} (here : wires[k]? = some wire)
    (same : List.Perm (carried next) (carried wire)) :
    List.Perm (carriedIds (wires.set k next)) (carriedIds wires) := by
  obtain ⟨inside, rfl⟩ := List.getElem?_eq_some_iff.mp here
  have before := (List.getElem_cons_eraseIdx_perm inside).flatMap_right fun wire => lineIds (carried wire)
  have after := (List.set_perm_cons_eraseIdx inside next).flatMap_right fun wire => lineIds (carried wire)
  rw [List.flatMap_cons] at before after
  exact after.trans (((same.filterMap _).append_right _).trans before)

theorem Single.of_le {s next : WiredClient} (single : Single s) (issued : next.issued = s.issued)
    (fewer : ∀ id, (unsentIds next.client).count id + (carriedIds next.wires).count id ≤
      (unsentIds s.client).count id + (carriedIds s.wires).count id) : Single next := by
  intro id
  rw [issued]
  exact (fewer id).trans (single id)

theorem step_single {bridgeProjectPath : String} {s next : WiredClient} (single : Single s) (numbered : Numbered s)
    (more : s.client.calls + 1 < 2 ^ 31) (moved : Moved bridgeProjectPath s next) : Single next := by
  cases moved with
  | issue req taken =>
    cases taken.did
    intro id
    have before := single id
    have counted : (unsentIds { s.client with
        nextId := s.client.nextId + 1
        calls := s.client.calls + 1
        senders := .issued ⟨s.client.calls, s.client.nextId⟩ :: s.client.senders }).count id =
        [s.client.nextId].count id + (unsentIds s.client).count id := by
      rw [unsentIds, List.flatMap_cons, List.count_append]
      rfl
    dsimp only
    rw [counted]
    by_cases own : s.client.nextId = id
    · -- the id is new, and so is its only copy
      subst own
      have fresh : s.client.nextId ∉ s.issued.map fun entry => entry.1.id := by
        intro member
        obtain ⟨entry, issued, same⟩ := List.mem_map.mp member
        exact numbered.fresh more issued same
      rw [if_neg fresh] at before
      rw [if_pos (by simp), List.count_singleton_self]
      omega
    · rw [List.count_singleton, if_neg (by simpa using own), Nat.zero_add]
      refine before.trans ?_
      split
      · rename_i member
        rw [if_pos (by rw [List.map_append]; exact List.mem_append_left _ member)]
      · exact Nat.zero_le _
  | @send c i id wire older here wires taken =>
    refine single.of_le rfl fun probe => ?_
    have sent := count_unsent_send here taken probe
    have added := count_send wire (s.line id) probe
    have own := lineIds_line s id probe
    rw [wires]
    simp only [carriedIds, List.flatMap_cons, List.count_append]
    omega
  | @sendPiece c i id whole wire older here wires taken =>
    refine single.of_le rfl fun probe => ?_
    have sent := count_unsent_send here taken probe
    have added := count_sendPiece wire (if whole then s.line id else none) probe
    have own : (lineIds [if whole then s.line id else none]).count probe ≤ [id].count probe := by
      split
      · exact lineIds_line s id probe
      · exact Nat.zero_le _
    rw [wires]
    simp only [carriedIds, List.flatMap_cons, List.count_append]
    omega
  | @recv c n wire older wires taken =>
    refine single.of_le rfl fun id => Nat.add_le_add (count_unsent_le taken.did nofun id) ?_
    rw [wires]
    exact Nat.le_refl _
  | connect taken =>
    exact single.of_le rfl fun id => Nat.add_le_add (count_unsent_le taken.did nofun id) (Nat.le_refl _)
  | client taken quiet =>
    exact single.of_le rfl fun id => Nat.add_le_add (count_unsent_le taken.did (not_issue quiet) id) (Nat.le_refl _)
  | bridge here going did =>
    refine single.of_le rfl fun id => Nat.add_le_add_left ?_ _
    have bridged := did.imp_right fun did => did.imp_right fun did => did.imp_left And.left
    exact ((carriedIds_set here (carried_bridged bridged)).count_eq id).le

/-! ## What comes back -/

/-- The lines written for the requests worked off. -/
def written (wires : List Wire) : List Json := wires.flatMap fun wire => wire.served.flatMap ServedLine.written

/-- A wire carries requests of the client, works them off as the loop of the connection
does, and brings back what that writes, and events. -/
structure Sound (bridgeProjectPath : String) (issued : List (ResponseCallback × Json)) (wire : Wire) : Prop where
  lines : ∀ req, some req ∈ carried wire → ∃ entry ∈ issued, req = stamp entry.1.id entry.2
  replays : wire.ended = false →
    (serve bridgeProjectPath {} (wire.served.map fun served => (served.line, served.server))).1 = wire.session
  writes : (serve bridgeProjectPath {} (wire.served.map fun served => (served.line, served.server))).2 =
    wire.served.map ServedLine.written
  output : ∀ msg ∈ wire.output, msg.contains "event" = true ∨ msg ∈ wire.served.flatMap ServedLine.written
  worked : ∀ served ∈ wire.served, Worked served.line served.server served.written

theorem serve_append (bridgeProjectPath : String) (s : BridgeState)
    (first second : List (Option Json × ServerAnswers)) :
    serve bridgeProjectPath s (first ++ second) =
      ((serve bridgeProjectPath (serve bridgeProjectPath s first).1 second).1,
        (serve bridgeProjectPath s first).2 ++
          (serve bridgeProjectPath (serve bridgeProjectPath s first).1 second).2) := by
  induction first generalizing s with
  | nil => rfl
  | cons line rest ih =>
    obtain ⟨line, server⟩ := line
    rw [List.cons_append, serve, ih]
    rfl

section
variable {bridgeProjectPath : String} {issued : List (ResponseCallback × Json)} {wire next : Wire}

theorem sound_new : Sound bridgeProjectPath issued {} where
  lines _ member := absurd member List.not_mem_nil
  replays _ := rfl
  writes := rfl
  output _ member := absurd member List.not_mem_nil
  worked _ member := absurd member List.not_mem_nil

theorem Sound.mono (sound : Sound bridgeProjectPath issued wire) (more : List (ResponseCallback × Json)) :
    Sound bridgeProjectPath (issued ++ more) wire :=
  { sound with
    lines := fun req member =>
      (sound.lines req member).imp fun _ found => ⟨List.mem_append_left _ found.1, found.2⟩ }

theorem Sound.send (sound : Sound bridgeProjectPath issued wire) {line : Option Json}
    (own : ∀ req, line = some req → ∃ entry ∈ issued, req = stamp entry.1.id entry.2) :
    Sound bridgeProjectPath issued (wire.send line) := by
  refine { sound with lines := fun req member => ?_ }
  unfold carried Wire.send at member
  rw [Option.toList_none, List.append_nil] at member
  rcases List.mem_append.mp member with input | served
  · rcases List.mem_append.mp input with old | new
    · exact sound.lines req (List.mem_append_left _ (List.mem_append_left _ old))
    · split at new
      · cases List.mem_singleton.mp new
      · exact own req (List.mem_singleton.mp new).symm
  · exact sound.lines req (List.mem_append_right _ served)

theorem Sound.sendPiece (sound : Sound bridgeProjectPath issued wire) {piece : Option Json}
    (own : ∀ req, piece = some req → ∃ entry ∈ issued, req = stamp entry.1.id entry.2) :
    Sound bridgeProjectPath issued (wire.sendPiece piece) := by
  refine { sound with lines := fun req member => ?_ }
  unfold carried Wire.sendPiece at member
  rw [Option.toList_some] at member
  rcases List.mem_append.mp member with input | served
  · rcases List.mem_append.mp input with old | new
    · exact sound.lines req (List.mem_append_left _ (List.mem_append_left _ old))
    · split at new
      · cases List.mem_singleton.mp new
      · exact own req (List.mem_singleton.mp new).symm
  · exact sound.lines req (List.mem_append_right _ served)

theorem Sound.bridged (sound : Sound bridgeProjectPath issued wire) (going : wire.ended = false)
    (did : Bridged bridgeProjectPath wire next) : Sound bridgeProjectPath issued next := by
  have lines : ∀ req, some req ∈ carried next → ∃ entry ∈ issued, req = stamp entry.1.id entry.2 :=
    fun req member => sound.lines req ((carried_bridged did).mem_iff.mp member)
  rcases did with ⟨server, handled⟩ | ⟨msg, pushed⟩ | rfl | rfl
  · obtain ⟨line, rest, -, rfl⟩ := handle_eq handled
    refine ⟨lines, fun _ => ?_, ?_, fun msg member => ?_, fun served member => ?_⟩
    · rw [List.map_append, serve_append, sound.replays going]
      rfl
    · rw [List.map_append, List.map_append, serve_append, sound.replays going, sound.writes]
      rfl
    · rw [List.flatMap_append]
      rcases List.mem_append.mp member with old | new
      · exact (sound.output msg old).imp_right fun found => List.mem_append_left _ found
      · exact .inr (List.mem_append_right _ (by simpa using new))
    · rcases List.mem_append.mp member with old | new
      · exact sound.worked served old
      · cases List.mem_singleton.mp new
        exact handleRequest_worked
  · unfold Wire.event at pushed
    split at pushed
    · rename_i event
      cases pushed
      refine { sound with output := fun other member => ?_ }
      rcases List.mem_append.mp member with old | new
      · exact sound.output other old
      · cases List.mem_singleton.mp new
        exact .inl event
    · cases pushed
  · exact { sound with lines := lines }
  · exact { sound with lines := lines, replays := nofun }

theorem served_grows (did : Bridged bridgeProjectPath wire next) : wire.served <+: next.served := by
  rcases did with ⟨server, handled⟩ | ⟨msg, pushed⟩ | rfl | rfl
  · obtain ⟨line, rest, -, rfl⟩ := handle_eq handled
    exact List.prefix_append _ _
  · unfold Wire.event at pushed
    split at pushed
    · cases pushed
      exact List.prefix_rfl
    · cases pushed
  · exact List.prefix_rfl
  · exact List.prefix_rfl

end

/-! ## Every interleaving -/

structure Inv (bridgeProjectPath : String) (s : WiredClient) : Prop where
  client : ResponseRouting.Inv s.client
  numbered : Numbered s
  single : Single s
  known : Every (fun cb => ∃ req, (cb, req) ∈ s.issued) s.client
  sound : ∀ wire ∈ s.wires, Sound bridgeProjectPath s.issued wire
  heard : ∀ msg ∈ s.client.received, msg.contains "event" = true ∨ msg ∈ written s.wires

section
variable {bridgeProjectPath : String} {s next : WiredClient}

theorem client_of_moved (moved : Moved bridgeProjectPath s next) :
    next.client = s.client ∨ ∃ act, BridgeClient.Step s.client act next.client := by
  cases moved with
  | issue req taken => exact .inr ⟨_, taken⟩
  | send here wires taken => exact .inr ⟨_, taken⟩
  | sendPiece here wires taken => exact .inr ⟨_, taken⟩
  | recv wires taken => exact .inr ⟨_, taken⟩
  | connect taken => exact .inr ⟨_, taken⟩
  | client taken quiet => exact .inr ⟨_, taken⟩
  | bridge here going did => exact .inl rfl

theorem step_client (inv : ResponseRouting.Inv s.client) (moved : Moved bridgeProjectPath s next) :
    ResponseRouting.Inv next.client := by
  rcases client_of_moved moved with same | ⟨act, taken⟩
  · rw [same]
    exact inv
  · exact ResponseRouting.step_inv inv taken

theorem step_known (known : Every (fun cb => ∃ req, (cb, req) ∈ s.issued) s.client)
    (moved : Moved bridgeProjectPath s next) : Every (fun cb => ∃ req, (cb, req) ∈ next.issued) next.client := by
  cases moved with
  | issue req taken =>
    have more : Every (fun cb => ∃ found, (cb, found) ∈ s.issued ++
      [(⟨s.client.calls, s.client.nextId⟩, req)]) s.client :=
      known.mono fun _ found => found.imp fun _ member => List.mem_append_left _ member
    exact step_every more taken.did fun _ => ⟨req, List.mem_append_right _ List.mem_cons_self⟩
  | send here wires taken | sendPiece here wires taken | recv wires taken | connect taken =>
    exact step_every known taken.did nofun
  | client taken quiet => exact step_every known taken.did fun same => absurd same (not_issue quiet)
  | bridge here going did => exact known

theorem line_known {id : Int32} {req : Json} (line : s.line id = some req) :
    ∃ entry ∈ s.issued, req = stamp entry.1.id entry.2 := by
  obtain ⟨entry, found, rfl⟩ := Option.map_eq_some_iff.mp line
  have own : entry.1.id = id := by simpa using List.find?_some found
  exact ⟨entry, List.mem_of_find?_eq_some found, by rw [own]⟩

theorem step_sound (sound : ∀ wire ∈ s.wires, Sound bridgeProjectPath s.issued wire)
    (moved : Moved bridgeProjectPath s next) : ∀ wire ∈ next.wires, Sound bridgeProjectPath next.issued wire := by
  intro wire member
  cases moved with
  | issue req taken => exact (sound wire member).mono _
  | @send c i id newest older here wires taken =>
    rw [wires] at sound
    rcases List.mem_cons.mp member with rfl | old
    · exact (sound newest List.mem_cons_self).send fun req line => line_known line
    · exact sound wire (List.mem_cons_of_mem _ old)
  | @sendPiece c i id whole newest older here wires taken =>
    rw [wires] at sound
    rcases List.mem_cons.mp member with rfl | old
    · refine (sound newest List.mem_cons_self).sendPiece fun req line => ?_
      split at line
      · exact line_known line
      · cases line
    · exact sound wire (List.mem_cons_of_mem _ old)
  | @recv c n newest older wires taken =>
    rw [wires] at sound
    rcases List.mem_cons.mp member with rfl | old
    · have before := sound newest List.mem_cons_self
      exact { before with output := fun msg there => before.output msg (List.mem_of_mem_drop there) }
    · exact sound wire (List.mem_cons_of_mem _ old)
  | connect taken =>
    rcases List.mem_cons.mp member with rfl | old
    · exact sound_new
    · exact sound wire old
  | client taken quiet => exact sound wire member
  | bridge here going did =>
    rcases List.mem_or_eq_of_mem_set member with old | rfl
    · exact sound wire old
    · have bridged := did.imp_right fun did => did.imp_right fun did => did.imp_left And.left
      exact (sound _ (List.mem_of_getElem? here)).bridged going bridged

theorem written_set {wires : List Wire} {k : Nat} {wire after : Wire} (here : wires[k]? = some wire)
    (more : wire.served <+: after.served) {msg : Json} (member : msg ∈ written wires) :
    msg ∈ written (wires.set k after) := by
  obtain ⟨inside, rfl⟩ := List.getElem?_eq_some_iff.mp here
  have before := (List.getElem_cons_eraseIdx_perm inside).flatMap_right
    fun wire => wire.served.flatMap ServedLine.written
  have later := (List.set_perm_cons_eraseIdx inside after).flatMap_right
    fun wire => wire.served.flatMap ServedLine.written
  rw [List.flatMap_cons] at before later
  refine later.mem_iff.mpr ?_
  rcases List.mem_append.mp (before.mem_iff.mpr member) with own | other
  · obtain ⟨served, there, wrote⟩ := List.mem_flatMap.mp own
    exact List.mem_append_left _ (List.mem_flatMap.mpr ⟨served, more.subset there, wrote⟩)
  · exact List.mem_append_right _ other

theorem step_heard (inv : Inv bridgeProjectPath s) (moved : Moved bridgeProjectPath s next) :
    ∀ msg ∈ next.client.received, msg.contains "event" = true ∨ msg ∈ written next.wires := by
  have kept {act : BridgeClient.Act} {c : BridgeClient} (taken : BridgeClient.Step s.client act c)
      (other : ∀ msgs, act ≠ .recv msgs) : c.received = s.client.received := by
    rcases received_of_did taken.did with ⟨msgs, same, -⟩ | ⟨-, same⟩
    · exact absurd same (other msgs)
    · exact same
  have before := inv.heard
  intro msg member
  cases moved with
  | issue req taken =>
    rw [kept taken nofun] at member
    exact before msg member
  | send here wires taken | sendPiece here wires taken =>
    rw [kept taken nofun] at member
    rw [wires] at before
    exact before msg member
  | @recv c n wire older wires taken =>
    have sound := inv.sound
    rw [wires] at before sound
    rcases received_of_did taken.did with ⟨msgs, same, received⟩ | ⟨other, -⟩
    · cases same
      dsimp only at member
      rw [received] at member
      rcases List.mem_append.mp member with old | new
      · exact before msg old
      · refine ((sound wire List.mem_cons_self).output msg (List.mem_of_mem_take new)).imp_right fun found => ?_
        exact List.mem_append_left _ found
    · exact absurd rfl (other _)
  | connect taken =>
    rw [kept taken nofun] at member
    exact before msg member
  | @client c act taken quiet =>
    have other : ∀ msgs, act ≠ .recv msgs := by
      rintro msgs rfl
      rcases quiet with quiet | ⟨i, same⟩
      · cases quiet
      · cases same
    rw [kept taken other] at member
    exact before msg member
  | bridge here going did =>
    have bridged := did.imp_right fun did => did.imp_right fun did => did.imp_left And.left
    exact (before msg member).imp_right fun found => written_set here (served_grows bridged) found

theorem step_inv (inv : Inv bridgeProjectPath s) (more : s.client.calls + 1 < 2 ^ 31)
    (moved : Moved bridgeProjectPath s next) : Inv bridgeProjectPath next where
  client := step_client inv.client moved
  numbered := step_numbered inv.numbered more moved
  single := step_single inv.single inv.numbered more moved
  known := step_known inv.known moved
  sound := step_sound inv.sound moved
  heard := step_heard inv moved

theorem inv_start : Inv bridgeProjectPath {} where
  client := ResponseRouting.inv_start
  numbered := ⟨by decide, rfl, nofun, nofun⟩
  single _ := Nat.zero_le _
  known :=
    { issued := nofun, holding := nofun, pending := fun _ _ held => (by cases held), receiving := nofun
      failing := nofun, invoked := nofun }
  sound := nofun
  heard := nofun

theorem reaches_inv (reached : Runs.Reaches (Step bridgeProjectPath) IdsLast {} s) : Inv bridgeProjectPath s :=
  reached.invariant inv_start fun _ _ _ inv more taken => step_inv inv more taken.moved

end

/-! ## Safety -/

/-- The client reads an id as it was written. -/
theorem readId_int32Json (id : Int32) : readId (int32Json id) = some id := by
  rw [int32Json, readId, ← Int32.toInt_toInt64, Int64.ofInt_toInt, Int32.toInt32_toInt64]

theorem answeredId_of_answers {id : Int32} {msg : Json} (answers : Answers id msg) : answeredId msg = some id := by
  rw [answeredId, answers.event, if_neg Bool.false_ne_true, answers.id, Option.bind_some, readId_int32Json]

/-- The bridge has worked off a request under an id, and has written this line for it. -/
def WrittenFor (s : WiredClient) (id : Int32) (req msg : Json) : Prop :=
  ∃ wire ∈ s.wires, ∃ served ∈ wire.served, served.line = some (stamp id req) ∧ msg ∈ served.written

theorem writtenFor_of_answered {bridgeProjectPath : String} {s : WiredClient} (inv : Inv bridgeProjectPath s)
    {cb : ResponseCallback} {req msg : Json} (issued : (cb, req) ∈ s.issued)
    (answered : ResponseRouting.Answered s.client.received cb msg) : WrittenFor s cb.id req msg := by
  obtain ⟨received, answers⟩ := answered
  have noEvent : ¬msg.contains "event" = true := by
    intro event
    rw [answeredId, if_pos event] at answers
    cases answers
  obtain ⟨wire, member, there⟩ := List.mem_flatMap.mp ((inv.heard msg received).resolve_left noEvent)
  obtain ⟨served, worked, wrote⟩ := List.mem_flatMap.mp there
  have sound := inv.sound wire member
  have own : lineId served.line = cb.id := by
    have named := answeredId_of_answers ((sound.worked served worked).answers msg wrote)
    rw [answers] at named
    exact (Option.some.inj named).symm
  refine ⟨wire, member, served, worked, ?_, wrote⟩
  cases line : served.line with
  | none =>
    -- a line without an id is answered under -1
    obtain ⟨within, id⟩ := inv.numbered.id _ issued
    rw [line] at own
    have few := inv.numbered.few
    exact absurd (id.symm.trans own.symm) (callId_ne_neg_one (by omega))
  | some sent =>
    have carries : some sent ∈ carried wire := List.mem_append_right _ (List.mem_map.mpr ⟨served, worked, line⟩)
    obtain ⟨entry, other, rfl⟩ := sound.lines sent carries
    rw [line, lineId, Option.map_some, Option.getD_some, requestId_stamp] at own
    cases inv.numbered.same other issued own
    rfl

/-- The requests worked off on all the wires. -/
def workedOff (s : WiredClient) : List Json :=
  s.wires.flatMap fun wire => wire.served.filterMap ServedLine.line

theorem workedOff_ids (wires : List Wire) :
    ((wires.flatMap fun wire => wire.served.filterMap ServedLine.line).map requestId).Sublist (carriedIds wires) := by
  induction wires with
  | nil => exact .refl _
  | cons wire older ih =>
    rw [List.flatMap_cons, List.map_append, carriedIds, List.flatMap_cons]
    refine List.Sublist.append ?_ ih
    have same : (wire.served.filterMap ServedLine.line).map requestId = lineIds (wire.served.map ServedLine.line) := by
      rw [lineIds, List.filterMap_map, List.map_filterMap]
      rfl
    rw [same, carried, lineIds_append]
    exact List.sublist_append_right _ _

theorem workedOff_nodup {s : WiredClient} (single : Single s) : (workedOff s).Nodup := by
  have ids : (carriedIds s.wires).Nodup := by
    refine List.nodup_iff_count_le_one.mpr fun id => ?_
    have one := single id
    split at one <;> omega
  exact (ids.sublist (workedOff_ids s.wires)).of_map

/-- Over every interleaving of a client, its connects and disconnects, and the bridge
behind each of its wires, as long as the ids last: a callback is invoked with an error
of the client's own or with a line the bridge wrote for the very request of its call;
no request is worked off twice, on one wire or on several; and what is written on a
wire is what the connection's loop writes for the lines worked off on it. -/
theorem requests_answered_by_their_own {bridgeProjectPath : String} {s : WiredClient}
    (reached : Runs.Reaches (Step bridgeProjectPath) IdsLast {} s) :
    (∀ entry ∈ s.client.invoked, ∃ req, (entry.1, req) ∈ s.issued ∧
      (entry.2 = sendFailed entry.1.id ∨ entry.2 = disconnected entry.1.id ∨
        WrittenFor s entry.1.id req entry.2)) ∧
      (workedOff s).Nodup ∧
      ∀ wire ∈ s.wires,
        (serve bridgeProjectPath {} (wire.served.map fun served => (served.line, served.server))).2 =
          wire.served.map ServedLine.written := by
  have inv := reaches_inv reached
  refine ⟨fun entry member => ?_, workedOff_nodup inv.single, fun wire member => (inv.sound wire member).writes⟩
  obtain ⟨req, issued⟩ := inv.known.invoked entry member
  refine ⟨req, issued, ?_⟩
  rcases inv.client.routed.invoked entry member with answered | failed | lost
  · exact .inr (.inr (writtenFor_of_answered inv issued answered))
  · exact .inl failed
  · exact .inr (.inl lost)

/-- A server nothing is asked of. -/
def unasked : ServerAnswers where
  repository _ :=
    { getCheckouts := .ok true, checkout := .ok true, user := "", currentVersion := 1, openDatabase := fun _ => .ok ()
      getVersions := .ok [], updateCheckoutVersion := .ok (), terminateCheckout := fun _ => .ok () }

/-- A ping whose line is cut short, another one on the next wire, and its answer. -/
theorem ping_answered_after_reconnect :
    ∃ s, Runs.Reaches (Step "") IdsLast {} s ∧
      s.client.invoked.map (fun entry => (entry.1.call, (entry.2.get? "ok").bind Json.getAsBoolean)) =
        [(0, some false), (1, some true)] ∧
      (∀ entry ∈ s.client.invoked, ∃ req, (entry.1, req) ∈ s.issued ∧
        (entry.2 = sendFailed entry.1.id ∨ entry.2 = disconnected entry.1.id ∨
          WrittenFor s entry.1.id req entry.2)) ∧
      (workedOff s).Nodup := by
  let ping : Json := .obj [("op", .str "ping")]
  let acts := connectActs ++ [.issue ping, .client (.register 0), .sendFails 0 (some false), .client (.cleanUp 0),
    .client (.failSend 0), .client .endLoop] ++ connectActs ++ [.issue ping, .client (.register 0), .send 0,
    .handle 0 unasked, .recv 1, .client .dispatch, .client .deliver]
  have told : ((acts.foldlM (fun s act => if IdsLast s act then s.step "" act else none) {}).map fun s =>
      s.client.invoked.map fun entry => (entry.1.call, (entry.2.get? "ok").bind Json.getAsBoolean)) =
        some [(0, some false), (1, some true)] := by decide +kernel
  obtain ⟨s, ran, invoked⟩ := Option.map_eq_some_iff.mp told
  have reached := Runs.Reaches.start.foldlM_guarded ran
  obtain ⟨own, once, -⟩ := requests_answered_by_their_own reached
  exact ⟨s, reached, invoked, own, once⟩

end GhidraBridge.RequestDelivery
