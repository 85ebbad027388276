import GhidraBridge.RequestDelivery

/-! What becomes of a request that was sent. While its socket lives, a request that is
pending has a thread in `sendAsync` that will see to it, or its line is under way to the
bridge, or its answer is under way back. Where nothing is under way any more, nothing
that was sent is left waiting. -/
namespace GhidraBridge.RequestsAtRest
open Lib WiredClient SessionAgreement RequestLoop RequestDelivery
open BridgeClient (answeredId replaceSender Did)

/-! ## The phases of a disconnect -/

/-- The steps of a disconnect between the closing of the socket and the end of it. -/
def isShut : Control → Bool
  | .closed _ | .joined _ | .failing _ _ | .connecting => true
  | .idle | .stopped _ | .opened => false

/-- The steps at which the receive thread has been joined. -/
def isJoined : Control → Bool
  | .joined _ | .failing _ _ | .connecting | .opened => true
  | .idle | .stopped _ | .closed _ => false

/-- The socket is closed and the map is not yet taken away. -/
def dooms : Control → Bool
  | .closed _ | .joined _ => true
  | _ => false

structure Phased (c : BridgeClient) : Prop where
  shut : isShut c.control = true → c.sock = false
  joined : isJoined c.control = true → c.receiver = none

theorem step_phased {c next : BridgeClient} {act : BridgeClient.Act} (phased : Phased c) (did : Did c act next) :
    Phased next := by
  have reads {receiver : Receiver} (now : c.receiver = some receiver) : ¬isJoined c.control = true := by
    intro joined
    rw [phased.joined joined] at now
    cases now
  cases did with
  | recv now | unanswered now | dispatch now | deliver now | endLoop now =>
    exact { phased with joined := fun joined => absurd joined (reads now) }
  | disconnect => exact ⟨nofun, nofun⟩
  | close => exact ⟨fun _ => rfl, nofun⟩
  | join closed => exact ⟨fun _ => phased.shut (by rw [closed]; rfl), fun _ => rfl⟩
  | swap joined =>
    exact ⟨fun _ => phased.shut (by rw [joined]; rfl), fun _ => phased.joined (by rw [joined]; rfl)⟩
  | failPending failing =>
    exact ⟨fun _ => phased.shut (by rw [failing]; rfl), fun _ => phased.joined (by rw [failing]; rfl)⟩
  | @disconnected thenConnect failing =>
    have shut : c.sock = false := phased.shut (by rw [failing]; rfl)
    have joined : c.receiver = none := phased.joined (by rw [failing]; rfl)
    exact ⟨fun _ => shut, fun _ => joined⟩
  | connected connecting => exact ⟨nofun, fun _ => phased.joined (by rw [connecting]; rfl)⟩
  | notConnected => exact ⟨nofun, nofun⟩
  | startLoop => exact ⟨nofun, nofun⟩
  | issue | register | dumpThrows | sent | notSent | gone | cleanUp | failSend => exact { phased with }

/-! ## Where a pending request is -/

/-- A thread is in `sendAsync` with the request registered, or has left it by an exception. -/
def Waits (c : BridgeClient) (id : Int32) : Prop :=
  Sender.registered id ∈ c.senders ∨ Sender.failed id ∈ c.senders ∨ Sender.thrown id ∈ c.senders

/-- The messages the receive thread has yet to dispatch. -/
def queued : Option Receiver → List Json
  | some (.reading queue) | some (.holding _ _ queue) => queue
  | some .ended | none => []

/-- The request is under way on the newest wire, or its answer is; or it is lost, with
the wire or for the piece of another line. -/
def UnderWay (s : WiredClient) (id : Int32) : Prop :=
  s.client.receiver = some .ended ∨ id ∈ s.garbled ∨
    ∃ wire, s.wires.head? = some wire ∧
      (wire.ended = true ∨ id ∈ lineIds wire.input ∨
        ∃ msg ∈ wire.output ++ queued s.client.receiver, answeredId msg = some id)

/-- Every pending request is accounted for, but for those a disconnect is about to fail. -/
def Accounted (s : WiredClient) : Prop :=
  dooms s.client.control = true ∨
    ∀ id cb, s.client.pending.lookup id = some cb → Waits s.client id ∨ s.client.sock = true ∧ UnderWay s id

/-! ## The client's steps -/

section
variable {c : BridgeClient} {i : Nat} {sender : Sender} {after : Option Sender} {id : Int32}

/-- The threads other than the one that takes a step stay where they are. -/
theorem mem_replaceSender_of_ne {other : Sender} (here : c.senders[i]? = some sender) (member : other ∈ c.senders)
    (ne : other ≠ sender) : other ∈ c.replaceSender i after := by
  obtain ⟨inside, rfl⟩ := List.getElem?_eq_some_iff.mp here
  have split := (List.getElem_cons_eraseIdx_perm inside).mem_iff.mpr member
  exact List.mem_append_right _ ((List.mem_cons.mp split).resolve_left ne)

theorem Waits.kept {pending : Table Int32 ResponseCallback} {registered : List ResponseCallback}
    {invoked : List (ResponseCallback × Json)} (waits : Waits c id)
    (here : c.senders[i]? = some sender) (ne : sender ≠ .registered id) (too : sender ≠ .failed id)
    (also : sender ≠ .thrown id) :
    Waits
      { c with
        pending := pending, registered := registered, invoked := invoked
        senders := c.replaceSender i after } id := by
  rcases waits with member | member | member
  · exact .inl (mem_replaceSender_of_ne here member ne.symm)
  · exact .inr (.inl (mem_replaceSender_of_ne here member too.symm))
  · exact .inr (.inr (mem_replaceSender_of_ne here member also.symm))

theorem Waits.cons (waits : Waits c id) (first : Sender) {nextId : Int32} {calls : Nat} :
    Waits { c with senders := first :: c.senders, nextId := nextId, calls := calls } id :=
  waits.imp (List.mem_cons_of_mem _) fun others => others.imp (List.mem_cons_of_mem _) (List.mem_cons_of_mem _)

end

/-- A message that is passed over answers no pending request. -/
theorem unanswered_of_step {c : BridgeClient} {msg : Json} {queue : List Json} {id : Int32}
    (taken : BridgeClient.Step c .dispatch { c with receiver := some (.reading queue) })
    (reading : c.receiver = some (.reading (msg :: queue))) (answers : answeredId msg = some id) :
    c.pending.lookup id = none := by
  unfold BridgeClient.Step BridgeClient.step BridgeClient.dispatch at taken
  rw [reading] at taken
  dsimp only at taken
  rw [answers, Option.bind_some] at taken
  cases found : c.pending.lookup id with
  | none => rfl
  | some cb =>
    rw [found] at taken
    injection taken with taken
    injection (congrArg BridgeClient.receiver taken) with receiver
    cases receiver

/-! ## Every step -/

section
variable {bridgeProjectPath : String} {s next : WiredClient}

/-- The request is under way in a client that has the same messages before it. -/
theorem UnderWay.client {id : Int32} (under : UnderWay s id) {c : BridgeClient}
    (ended : s.client.receiver = some .ended → c.receiver = some .ended)
    (queue : ∀ msg ∈ queued s.client.receiver, answeredId msg = some id → msg ∈ queued c.receiver) :
    UnderWay { s with client := c } id := by
  rcases under with lost | garbled | ⟨wire, newest, way⟩
  · exact .inl (ended lost)
  · exact .inr (.inl garbled)
  · refine .inr (.inr ⟨wire, newest, way.imp_right fun way => way.imp_right ?_⟩)
    rintro ⟨msg, member, answers⟩
    refine ⟨msg, ?_, answers⟩
    rcases List.mem_append.mp member with output | waiting
    · exact List.mem_append_left _ output
    · exact List.mem_append_right _ (queue msg waiting answers)

/-- A client's step after which every pending request was pending before, and is where
it was. -/
theorem accounted_of_kept (accounted : Accounted s) {c : BridgeClient}
    (doomed : dooms s.client.control = true → dooms c.control = true)
    (sock : s.client.sock = true → c.sock = true)
    (pending : ∀ id cb, c.pending.lookup id = some cb → s.client.pending.lookup id = some cb)
    (waits : ∀ id cb, c.pending.lookup id = some cb → Waits s.client id → Waits c id)
    (ended : s.client.receiver = some .ended → c.receiver = some .ended)
    (queue : ∀ id cb, c.pending.lookup id = some cb → ∀ msg ∈ queued s.client.receiver, answeredId msg = some id →
      msg ∈ queued c.receiver) : Accounted { s with client := c } := by
  rcases accounted with doom | each
  · exact .inl (doomed doom)
  · refine .inr fun id cb held => ?_
    rcases each id cb (pending id cb held) with waiting | ⟨opened, under⟩
    · exact .inl (waits id cb held waiting)
    · exact .inr ⟨sock opened, under.client ended (queue id cb held)⟩

/-- The same for a step that leaves the map, the socket and the messages. -/
theorem accounted_of_senders (accounted : Accounted s) {c : BridgeClient} (control : c.control = s.client.control)
    (sock : c.sock = s.client.sock) (pending : c.pending = s.client.pending) (receiver : c.receiver = s.client.receiver)
    (waits : ∀ id cb, s.client.pending.lookup id = some cb → Waits s.client id → Waits c id) :
    Accounted { s with client := c } := by
  refine accounted_of_kept accounted ?_ ?_ ?_ ?_ ?_ ?_
  · exact fun doom => control ▸ doom
  · exact fun opened => sock ▸ opened
  · exact fun id cb held => pending ▸ held
  · exact fun id cb held => waits id cb (pending ▸ held)
  · exact fun ended => receiver ▸ ended
  · exact fun id cb held msg member answers => receiver ▸ member

/-- A sender that holds no callback of the map goes from one place to another. -/
theorem ne_of_lookup {pending : Table Int32 ResponseCallback} {id other : Int32} {cb : ResponseCallback}
    (missing : pending.lookup id = none) (held : pending.lookup other = some cb) : id ≠ other := by
  rintro rfl
  rw [missing] at held
  cases held

theorem accounted_client (accounted : Accounted s) (phased : Phased s.client) {act : BridgeClient.Act}
    {c : BridgeClient} (taken : BridgeClient.Step s.client act c)
    (quiet : isLocal act = true ∨ (∃ i, act = .send i false) ∨ act = .issue) :
    Accounted { s with client := c } := by
  cases taken.did with
  | issue =>
    exact accounted_of_senders accounted rfl rfl rfl rfl fun _ _ _ waiting => waiting.cons _
  | @register i cb here =>
    rcases accounted with doom | each
    · exact .inl doom
    · refine .inr fun id found held => ?_
      dsimp only at held ⊢
      rw [Table.lookup_set] at held
      split at held
      · rename_i same
        subst same
        exact .inl (.inl (List.mem_append_left _ (by simp)))
      · rcases each id found held with waiting | ⟨opened, under⟩
        · exact .inl (waiting.kept here nofun nofun nofun)
        · exact .inr ⟨opened, under.client (fun ended => ended) fun _ member _ => member⟩
  | @dumpThrows i id here =>
    refine accounted_of_senders accounted rfl rfl rfl rfl fun other _ _ waiting => ?_
    by_cases own : id = other
    · subst own
      exact .inr (.inr (List.mem_append_left _ (by simp)))
    · exact waiting.kept here (by simpa using own) nofun nofun
  | sent here opened =>
    rcases quiet with quiet | ⟨i, same⟩ | same
    · cases quiet
    · cases same
    · cases same
  | @notSent i id here =>
    refine accounted_of_senders accounted rfl rfl rfl rfl fun other _ _ waiting => ?_
    by_cases own : id = other
    · subst own
      exact .inr (.inl (List.mem_append_left _ (by simp)))
    · exact waiting.kept here (by simpa using own) nofun nofun
  | @gone i id here missing =>
    refine accounted_of_senders accounted rfl rfl rfl rfl fun other _ held waiting => ?_
    exact waiting.kept here nofun (by simpa using ne_of_lookup missing held) nofun
  | @cleanUp i id cb here found =>
    refine accounted_of_kept accounted (fun doom => doom) (fun opened => opened) ?_ ?_ (fun ended => ended)
      fun _ _ _ _ member _ => member
    · exact fun other found held => (Table.of_lookup_erase held).2
    · intro other found held waiting
      have own : id ≠ other := (Table.of_lookup_erase held).1.symm
      exact waiting.kept here nofun (by simpa using own) nofun
  | @failSend i id cb here =>
    exact accounted_of_senders accounted rfl rfl rfl rfl fun _ _ _ waiting => waiting.kept here nofun nofun nofun
  | recv reading =>
    rcases quiet with quiet | ⟨i, same⟩ | same
    · cases quiet
    · cases same
    · cases same
  | @unanswered msg queue reading =>
    refine accounted_of_kept accounted (fun doom => doom) (fun opened => opened) (fun _ _ held => held)
      (fun _ _ _ waiting => waiting) ?_ ?_
    · rw [reading]
      nofun
    · intro id cb held other member answers
      rw [reading] at member
      rcases List.mem_cons.mp member with rfl | later
      · rw [unanswered_of_step taken reading answers] at held
        cases held
      · exact later
  | @dispatch msg queue id cb reading answers found =>
    refine accounted_of_kept accounted (fun doom => doom) (fun opened => opened) ?_ (fun _ _ _ waiting => waiting) ?_ ?_
    · exact fun other found held => (Table.of_lookup_erase held).2
    · rw [reading]
      nofun
    · intro other found held later member named
      rw [reading] at member
      rcases List.mem_cons.mp member with rfl | waiting
      · rw [answers] at named
        exact absurd (Option.some.inj named).symm (Table.of_lookup_erase held).1
      · exact waiting
  | @deliver cb msg queue held =>
    refine accounted_of_kept accounted (fun doom => doom) (fun opened => opened) (fun _ _ held => held)
      (fun _ _ _ waiting => waiting) ?_ ?_
    · rw [held]
      nofun
    · rw [held]
      exact fun _ _ _ _ member _ => member
  | endLoop reading =>
    rcases accounted with doom | each
    · exact .inl doom
    · refine .inr fun id cb held => (each id cb held).imp_right fun way => ⟨way.1, .inl rfl⟩
  | disconnect idle =>
    refine accounted_of_kept accounted ?_ (fun opened => opened) (fun _ _ held => held)
      (fun _ _ _ waiting => waiting) (fun ended => ended) fun _ _ _ _ member _ => member
    rw [idle]
    nofun
  | close stopped => exact .inl rfl
  | join closed => exact .inl rfl
  | swap joined => exact .inr fun id cb held => nomatch held
  | failPending failing =>
    refine accounted_of_kept accounted ?_ (fun opened => opened) (fun _ _ held => held)
      (fun _ _ _ waiting => waiting) (fun ended => ended) fun _ _ _ _ member _ => member
    rw [failing]
    nofun
  | disconnected failing =>
    refine accounted_of_kept accounted ?_ (fun opened => opened) (fun _ _ held => held)
      (fun _ _ _ waiting => waiting) (fun ended => ended) fun _ _ _ _ member _ => member
    rw [failing]
    nofun
  | connected connecting =>
    rcases quiet with quiet | ⟨i, same⟩ | same
    · cases quiet
    · cases same
    · cases same
  | notConnected connecting =>
    refine accounted_of_kept accounted ?_ (fun opened => opened) (fun _ _ held => held)
      (fun _ _ _ waiting => waiting) (fun ended => ended) fun _ _ _ _ member _ => member
    rw [connecting]
    nofun
  | startLoop opened =>
    have none : s.client.receiver = none := phased.joined (by rw [opened]; rfl)
    refine accounted_of_kept accounted ?_ (fun opened => opened) (fun _ _ held => held)
      (fun _ _ _ waiting => waiting) ?_ ?_
    · rw [opened]
      nofun
    · rw [none]
      nofun
    · rw [none]
      exact fun _ _ _ _ member _ => member

/-- A request that has just been sent is under way, or ran into a piece. -/
theorem underWay_send {c : BridgeClient} {wire : Wire} {older : List Wire} {id : Int32} {req : Json}
    (line : s.line id = some req) (own : requestId req = id) :
    UnderWay
      { s with
        client := c
        wires := wire.send (s.line id) :: older
        garbled := if wire.piece.isSome then id :: s.garbled else s.garbled } id := by
  refine .inr ?_
  cases piece : wire.piece.isSome with
  | true =>
    refine .inl ?_
    dsimp only
    rw [if_pos rfl]
    exact List.mem_cons_self
  | false =>
    refine .inr ⟨_, rfl, .inr (.inl ?_)⟩
    unfold Wire.send
    rw [piece, if_neg Bool.false_ne_true, line, lineIds_append]
    refine List.mem_append_right _ (List.mem_filterMap.mpr ⟨some req, List.mem_cons_self, ?_⟩)
    rw [Option.map_some, own]

/-- The newest wire after it has taken a line or a piece. -/
theorem UnderWay.newest {wire after : Wire} {older : List Wire} {id : Int32} (under : UnderWay s id)
    (wires : s.wires = wire :: older) {c : BridgeClient} {garbled : List Int32}
    (receiver : c.receiver = s.client.receiver) (more : ∀ id ∈ s.garbled, id ∈ garbled)
    (ended : wire.ended = true → after.ended = true) (input : ∀ id ∈ lineIds wire.input, id ∈ lineIds after.input)
    (output : after.output = wire.output) :
    UnderWay { s with client := c, wires := after :: older, garbled := garbled } id := by
  rcases under with lost | lost | ⟨newest, head, way⟩
  · exact .inl (receiver.trans lost)
  · exact .inr (.inl (more id lost))
  · rw [wires, List.head?_cons] at head
    cases head
    refine .inr (.inr ⟨after, rfl, way.imp ended fun way => way.imp (input id) ?_⟩)
    rw [output, receiver]
    exact fun back => back

/-- A step of the bridge leaves a request on its way, and handling its line sets the
answer on its way. -/
theorem UnderWay.bridged {wire after : Wire} {older : List Wire} {id : Int32} (under : UnderWay s id)
    (wires : s.wires = wire :: older) (did : Bridged bridgeProjectPath wire after) :
    UnderWay { s with wires := after :: older } id := by
  rcases under with lost | lost | ⟨newest, head, way⟩
  · exact .inl lost
  · exact .inr (.inl lost)
  · rw [wires, List.head?_cons] at head
    cases head
    refine .inr (.inr ⟨after, rfl, ?_⟩)
    rcases did with ⟨server, handled⟩ | ⟨msg, pushed⟩ | rfl | rfl
    · obtain ⟨line, rest, input, rfl⟩ := handle_eq handled
      refine way.imp_right fun way => ?_
      rw [input] at way
      rcases way with waiting | ⟨msg, member, answers⟩
      · rw [lineIds, List.filterMap_cons] at waiting
        cases line with
        | none => exact .inl waiting
        | some req =>
          rcases List.mem_cons.mp waiting with own | later
          · -- the request's own line is the one that was read
            have worked := @handleRequest_worked bridgeProjectPath server wire.session (some req)
            obtain ⟨answer, wrote⟩ : ∃ answer, answer ∈
              (handleRequest bridgeProjectPath wire.session (some req) server).2 := by
              refine List.exists_mem_of_length_pos ?_
              rcases worked.count with one | two <;> omega
            refine .inr ⟨answer, List.mem_append_left _ (List.mem_append_right _ wrote), ?_⟩
            rw [answeredId_of_answers (worked.answers answer wrote), own]
            rfl
          · exact .inl later
      · refine .inr ⟨msg, ?_, answers⟩
        rcases List.mem_append.mp member with output | queue
        · exact List.mem_append_left _ (List.mem_append_left _ output)
        · exact List.mem_append_right _ queue
    · unfold Wire.event at pushed
      split at pushed
      · cases pushed
        refine way.imp_right fun way => way.imp_right ?_
        rintro ⟨other, member, answers⟩
        refine ⟨other, ?_, answers⟩
        rcases List.mem_append.mp member with output | queue
        · exact List.mem_append_left _ (List.mem_append_left _ output)
        · exact List.mem_append_right _ queue
      · cases pushed
    · refine way.imp_right fun way => way.imp_left fun waiting => ?_
      unfold Wire.endOfStream
      rw [lineIds_append]
      exact List.mem_append_left _ waiting
    · exact .inl rfl

/-- A request that is yet to be sent has its line. -/
theorem line_of_registered (single : Single s) {i : Nat} {id : Int32}
    (here : s.client.senders[i]? = some (.registered id)) : ∃ req, s.line id = some req ∧ requestId req = id := by
  have unsentOne : id ∈ unsentIds s.client :=
    List.mem_flatMap.mpr ⟨_, List.mem_of_getElem? here, List.mem_cons_self⟩
  have counted := List.count_pos_iff.mpr unsentOne
  have issued : id ∈ s.issued.map fun entry => entry.1.id := by
    have one := single id
    split at one
    · assumption
    · omega
  obtain ⟨entry, member, own⟩ := List.mem_map.mp issued
  cases found : s.issued.find? fun entry => entry.1.id = id with
  | none => exact absurd (by simpa using own) (List.find?_eq_none.mp found entry member)
  | some first =>
    refine ⟨stamp id first.2, ?_, requestId_stamp id first.2⟩
    rw [WiredClient.line, found]
    rfl

theorem not_doomed (phased : Phased s.client) (opened : s.client.sock = true) : ¬dooms s.client.control = true := by
  intro doom
  have shut : isShut s.client.control = true := by
    cases control : s.client.control with
    | closed | joined => rfl
    | _ =>
      rw [control] at doom
      cases doom
  rw [phased.shut shut] at opened
  cases opened

theorem step_accounted (accounted : Accounted s) (phased : Phased s.client) (single : Single s)
    (moved : Moved bridgeProjectPath s next) : Accounted next := by
  cases moved with
  | issue req taken =>
    exact (accounted_client accounted phased taken (.inr (.inr rfl))).imp_right fun each => each
  | @send c i id wire older here wires taken =>
    cases taken.did with
    | @sent _ other sent opened =>
      cases here.symm.trans sent
      have each := accounted.resolve_left (not_doomed phased opened)
      refine .inr fun other cb held => ?_
      by_cases own : id = other
      · subst own
        obtain ⟨req, line, id⟩ := line_of_registered single here
        exact .inr ⟨opened, underWay_send line id⟩
      · rcases each other cb held with waiting | ⟨-, under⟩
        · exact .inl (waiting.kept here (by simpa using own) nofun nofun)
        · refine .inr ⟨opened, under.newest wires rfl ?_ (fun ended => ended) ?_ rfl⟩
          · intro id member
            split
            · exact List.mem_cons_of_mem _ member
            · exact member
          · intro id member
            rw [Wire.send, lineIds_append]
            exact List.mem_append_left _ member
  | @sendPiece c i id whole wire older here wires taken =>
    have after := accounted_client accounted phased taken (.inr (.inl ⟨i, rfl⟩))
    refine after.imp_right fun each other cb held => (each other cb held).imp_right fun way => ⟨way.1, ?_⟩
    exact way.2.newest wires rfl (fun _ member => member) (fun ended => ended) (fun _ member => member) rfl
  | @recv c n wire older wires taken =>
    cases taken.did with
    | recv reading =>
      refine accounted.imp_right fun each id cb held => (each id cb held).imp_right fun way => ⟨way.1, ?_⟩
      rcases way.2 with lost | lost | ⟨newest, head, under⟩
      · rw [reading] at lost
        cases lost
      · exact .inr (.inl lost)
      · rw [wires, List.head?_cons] at head
        cases head
        refine .inr (.inr ⟨_, rfl, under.imp_right fun under => under.imp_right ?_⟩)
        rintro ⟨msg, member, answers⟩
        rw [reading] at member
        refine ⟨msg, ?_, answers⟩
        have output : msg ∈ wire.output := (List.mem_append.mp member).resolve_right List.not_mem_nil
        rw [← List.take_append_drop n wire.output] at output
        exact List.mem_append.mpr (List.mem_append.mp output).symm
  | connect taken =>
    cases taken.did with
    | connected connecting =>
      have closed : s.client.sock = false := phased.shut (by rw [connecting]; rfl)
      have each := accounted.resolve_left (by rw [connecting]; nofun)
      refine .inr fun id cb held => .inl ((each id cb held).resolve_right fun way => ?_)
      rw [closed] at way
      cases way.1
  | client taken quiet => exact accounted_client accounted phased taken (quiet.imp_right .inl)
  | @bridge k wire after here going did =>
    have bridged := did.imp_right fun did => did.imp_right fun did => did.imp_left And.left
    refine accounted.imp_right fun each id cb held => (each id cb held).imp_right fun way => ⟨way.1, ?_⟩
    cases wires : s.wires with
    | nil =>
      rw [wires] at here
      cases here
    | cons newest older =>
      cases k with
      | zero =>
        rw [wires] at here
        cases here
        exact way.2.bridged wires bridged
      | succ k =>
        exact way.2.newest wires rfl (fun _ member => member) (fun ended => ended) (fun _ member => member) rfl

/-! ## Every registered callback -/

/-- The callback is in the map or in hand, or it has been invoked. -/
def Placed (c : BridgeClient) (cb : ResponseCallback) : Prop :=
  c.pending.lookup cb.id = some cb ∨ Sender.holding cb.id cb ∈ c.senders ∨
    (∃ msg queue, c.receiver = some (.holding cb msg queue)) ∨
    (∃ thenConnect left, c.control = .failing thenConnect left ∧ (cb.id, cb) ∈ left) ∨
    ∃ msg, (cb, msg) ∈ c.invoked

/-- The callbacks somewhere in a client are those placed there. -/
theorem Placed.every {P : ResponseCallback → Prop} {c : BridgeClient} {cb : ResponseCallback} (every : Every P c)
    (placed : Placed c cb) : P cb := by
  rcases placed with held | holding | ⟨msg, queue, receiving⟩ | ⟨thenConnect, left, failing, member⟩ | ⟨msg, invoked⟩
  · exact every.pending cb.id cb held
  · exact every.holding cb.id cb holding
  · exact every.receiving cb msg queue receiving
  · exact every.failing thenConnect left failing _ member
  · exact every.invoked _ invoked

section
variable {c : BridgeClient} {cb : ResponseCallback}

theorem placed_invoked {control : Control} {receiver : Option Receiver} {senders : List Sender} {msg : Json} :
    Placed
      { c with
        invoked := c.invoked ++ [(cb, msg)], control := control, receiver := receiver, senders := senders } cb :=
  .inr (.inr (.inr (.inr ⟨msg, List.mem_append_right _ List.mem_cons_self⟩)))

/-- A sender's step that leaves its callback where it is, or takes it out of the map. -/
theorem Placed.sends {i : Nat} {sender : Sender} {after : Option Sender} {pending : Table Int32 ResponseCallback}
    {registered : List ResponseCallback} (placed : Placed c cb) (here : c.senders[i]? = some sender)
    (ne : sender ≠ .holding cb.id cb)
    (held : c.pending.lookup cb.id = some cb → pending.lookup cb.id = some cb ∨ after = some (.holding cb.id cb)) :
    Placed { c with pending := pending, registered := registered, senders := c.replaceSender i after } cb := by
  rcases placed with mapped | holding | others
  · rcases held mapped with kept | rfl
    · exact .inl kept
    · exact .inr (.inl (List.mem_append_left _ (by simp)))
  · exact .inr (.inl (mem_replaceSender_of_ne here holding ne.symm))
  · exact .inr (.inr others)

/-- A step of the receive thread that has no callback in hand. -/
theorem Placed.receives {queue : List Json} {receiver : Option Receiver} {received : List Json} {running : Bool}
    (placed : Placed c cb) (reading : c.receiver = some (.reading queue)) :
    Placed { c with receiver := receiver, received := received, running := running } cb := by
  rcases placed with mapped | holding | ⟨msg, queue, now⟩ | others
  · exact .inl mapped
  · exact .inr (.inl holding)
  · rw [reading] at now
    cases now
  · exact .inr (.inr (.inr others))

/-- A step of a connect or a disconnect with no callback to fail. -/
theorem Placed.controls {control : Control} {receiver : Option Receiver} {sock running : Bool} {mark : Nat}
    (placed : Placed c cb) (fails : ∀ thenConnect entry left, c.control ≠ .failing thenConnect (entry :: left))
    (same : receiver = c.receiver ∨ c.receiver = none ∨ c.receiver = some .ended) :
    Placed { c with control := control, receiver := receiver, sock := sock, running := running, mark := mark } cb := by
  rcases placed with mapped | holding | ⟨msg, queue, now⟩ | ⟨thenConnect, left, failing, member⟩ | invoked
  · exact .inl mapped
  · exact .inr (.inl holding)
  · rcases same with rfl | none | ended
    · exact .inr (.inr (.inl ⟨msg, queue, now⟩))
    · rw [none] at now
      cases now
    · rw [ended] at now
      cases now
  · cases left with
    | nil => cases member
    | cons entry left => exact absurd failing (fails thenConnect entry left)
  · exact .inr (.inr (.inr (.inr invoked)))

/-- A callback goes from one place to another, unless another one is registered under
its id. -/
theorem placed_of_did {next : BridgeClient} {act : BridgeClient.Act} (did : Did c act next) (placed : Placed c cb)
    (phased : Phased c)
    (apart : ∀ own, Sender.issued own ∈ c.senders → own.id ≠ cb.id) : Placed next cb := by
  cases did with
  | issue =>
    rcases placed with mapped | holding | others
    · exact .inl mapped
    · exact .inr (.inl (List.mem_cons_of_mem _ holding))
    · exact .inr (.inr others)
  | @register i own here =>
    refine placed.sends here nofun fun mapped => .inl ?_
    exact (Table.lookup_set _ _ _ _).trans ((if_neg (apart own (List.mem_of_getElem? here)).symm).trans mapped)
  | dumpThrows here | sent here | notSent here | gone here => exact placed.sends here nofun .inl
  | @cleanUp i id taken here found =>
    refine placed.sends here nofun fun mapped => ?_
    by_cases own : cb.id = id
    · subst own
      rw [mapped] at found
      cases found
      exact .inr rfl
    · exact .inl ((Table.lookup_erase_eq _ _ _).trans ((if_neg own).trans mapped))
  | @failSend i id held here =>
    by_cases own : held = cb
    · subst own
      exact placed_invoked
    · have kept : Placed { c with senders := c.replaceSender i none } cb :=
        placed.sends here (fun same => own (Sender.holding.inj same).2) .inl
      rcases kept with mapped | holding | receiving | failing | ⟨msg, invoked⟩
      · exact .inl mapped
      · exact .inr (.inl holding)
      · exact .inr (.inr (.inl receiving))
      · exact .inr (.inr (.inr (.inl failing)))
      · exact .inr (.inr (.inr (.inr ⟨msg, List.mem_append_left _ invoked⟩)))
  | recv reading | unanswered reading | endLoop reading => exact placed.receives reading
  | @dispatch msg queue id taken reading answers found =>
    rcases placed with mapped | holding | ⟨other, later, now⟩ | others
    · by_cases own : cb.id = id
      · subst own
        rw [mapped] at found
        cases found
        exact .inr (.inr (.inl ⟨msg, queue, rfl⟩))
      · exact .inl ((Table.lookup_erase_eq _ _ _).trans ((if_neg own).trans mapped))
    · exact .inr (.inl holding)
    · rw [reading] at now
      cases now
    · exact .inr (.inr (.inr others))
  | @deliver held msg queue now =>
    by_cases own : held = cb
    · subst own
      exact placed_invoked
    · rcases placed with mapped | holding | ⟨other, later, receiving⟩ | failing | ⟨other, invoked⟩
      · exact .inl mapped
      · exact .inr (.inl holding)
      · rw [now] at receiving
        cases receiving
        exact absurd rfl own
      · exact .inr (.inr (.inr (.inl failing)))
      · exact .inr (.inr (.inr (.inr ⟨other, List.mem_append_left _ invoked⟩)))
  | disconnect now | close now | connected now | notConnected now =>
    exact placed.controls (fun _ _ _ failing => by rw [now] at failing; cases failing) (.inl rfl)
  | join now finished =>
    exact placed.controls (fun _ _ _ failing => by rw [now] at failing; cases failing) (.inr finished)
  | disconnected now =>
    exact placed.controls (fun _ _ _ failing => by rw [now] at failing; cases failing) (.inl rfl)
  | startLoop now =>
    have none : c.receiver = none := phased.joined (by rw [now]; rfl)
    exact placed.controls (fun _ _ _ failing => by rw [now] at failing; cases failing) (.inr (.inl none))
  | @swap thenConnect now =>
    rcases placed with mapped | holding | receiving | ⟨_, _, failing, _⟩ | invoked
    · exact .inr (.inr (.inr (.inl ⟨thenConnect, _, rfl, Table.mem_items.mpr mapped⟩)))
    · exact .inr (.inl holding)
    · exact .inr (.inr (.inl receiving))
    · rw [now] at failing
      cases failing
    · exact .inr (.inr (.inr (.inr invoked)))
  | @failPending thenConnect id own left now =>
    rcases placed with mapped | holding | receiving | ⟨_, _, failing, member⟩ | ⟨other, invoked⟩
    · exact .inl mapped
    · exact .inr (.inl holding)
    · exact .inr (.inr (.inl receiving))
    · rw [now] at failing
      cases failing
      rcases List.mem_cons.mp member with same | later
      · cases same
        exact placed_invoked
      · exact .inr (.inr (.inr (.inl ⟨thenConnect, left, rfl, later⟩)))
    · exact .inr (.inr (.inr (.inr ⟨other, List.mem_append_left _ invoked⟩)))

end

theorem phased_of_moved (phased : Phased s.client) (moved : Moved bridgeProjectPath s next) : Phased next.client := by
  rcases client_of_moved moved with same | ⟨act, taken⟩
  · rw [same]
    exact phased
  · exact step_phased phased taken.did

/-- Only a sender that has a callback to register registers one. -/
theorem registered_of_did {c next : BridgeClient} {act : BridgeClient.Act} (did : Did c act next)
    {cb : ResponseCallback} (member : cb ∈ next.registered) :
    cb ∈ c.registered ∨ Sender.issued cb ∈ c.senders ∧ next.pending.lookup cb.id = some cb := by
  cases did with
  | @register i own here =>
    refine (List.mem_append.mp member).imp_right fun new => ?_
    cases List.mem_singleton.mp new
    exact ⟨List.mem_of_getElem? here, (Table.lookup_set _ _ _ _).trans (if_pos rfl)⟩
  | _ => exact .inl member

/-- No call that is yet to be registered has the id of one that has been. -/
theorem issued_apart (inv : Inv bridgeProjectPath s) {cb own : ResponseCallback} (registered : cb ∈ s.client.registered)
    (placed : Placed s.client cb) (issued : Sender.issued own ∈ s.client.senders) : own.id ≠ cb.id := by
  intro same
  obtain ⟨req, member⟩ := placed.every inv.known
  obtain ⟨other, too⟩ := inv.known.issued own issued
  cases inv.numbered.same too member same
  have waiting : cb.call ∈ s.client.senders.flatMap ResponseRouting.unregistered :=
    List.mem_flatMap.mpr ⟨_, issued, List.mem_singleton_self _⟩
  have done : cb.call ∈ s.client.registered.map ResponseCallback.call := List.mem_map_of_mem registered
  have waitingCount := List.count_pos_iff.mpr waiting
  have doneCount := List.count_pos_iff.mpr done
  have once := inv.client.registersOnce cb.call
  unfold ResponseRouting.begun at once
  split at once <;> omega

theorem step_placed (inv : Inv bridgeProjectPath s) (phased : Phased s.client)
    (placed : ∀ cb ∈ s.client.registered, Placed s.client cb) (moved : Moved bridgeProjectPath s next) :
    ∀ cb ∈ next.client.registered, Placed next.client cb := by
  intro cb member
  rcases client_of_moved moved with same | ⟨act, taken⟩
  · rw [same] at member ⊢
    exact placed cb member
  · rcases registered_of_did taken.did member with old | ⟨-, mapped⟩
    · exact placed_of_did taken.did (placed cb old) phased fun _ issued => issued_apart inv old (placed cb old) issued
    · exact .inl mapped

structure Kept (bridgeProjectPath : String) (s : WiredClient) : Prop where
  accounted : Accounted s
  phased : Phased s.client
  inv : Inv bridgeProjectPath s
  placed : ∀ cb ∈ s.client.registered, Placed s.client cb

theorem kept_start : Kept bridgeProjectPath {} where
  accounted := .inr fun _ _ held => (by cases held)
  phased := ⟨nofun, nofun⟩
  inv := inv_start
  placed := nofun

theorem step_kept (kept : Kept bridgeProjectPath s) (more : s.client.calls + 1 < 2 ^ 31)
    (moved : Moved bridgeProjectPath s next) : Kept bridgeProjectPath next where
  accounted := step_accounted kept.accounted kept.phased kept.inv.single moved
  phased := phased_of_moved kept.phased moved
  inv := step_inv kept.inv more moved
  placed := step_placed kept.inv kept.phased kept.placed moved

theorem reaches_kept (reached : Runs.Reaches (Step bridgeProjectPath) IdsLast {} s) : Kept bridgeProjectPath s :=
  reached.invariant kept_start fun _ _ _ kept more taken => step_kept kept more taken.moved

end

/-! ## At rest -/

/-- The client is connected and reads, and nothing is under way on its wire. -/
def atRest (s : WiredClient) : Bool :=
  match s.wires, s.client.receiver, s.client.control with
  | wire :: _, some (.reading []), .idle => !wire.ended && wire.input.isEmpty && wire.output.isEmpty
  | _, _, _ => false

/-- Where a connected client and its bridge have come to rest, the only requests that
are pending are those a thread has yet to send or to give up, and those whose line ran
into the piece of one that failed. -/
theorem Kept.pending_at_rest {bridgeProjectPath : String} {s : WiredClient} (kept : Kept bridgeProjectPath s)
    (rest : atRest s = true) {id : Int32} {cb : ResponseCallback} (held : s.client.pending.lookup id = some cb) :
    Waits s.client id ∨ id ∈ s.garbled := by
  unfold atRest at rest
  split at rest
  · rename_i wire older wires reading idle
    simp only [Bool.and_eq_true, Bool.not_eq_true', List.isEmpty_iff] at rest
    obtain ⟨⟨going, input⟩, output⟩ := rest
    have each := kept.accounted.resolve_left (by rw [idle]; nofun)
    refine (each id cb held).imp_right fun way => ?_
    rcases way.2 with lost | garbled | ⟨newest, head, under⟩
    · rw [reading] at lost
      cases lost
    · exact garbled
    · rw [wires, List.head?_cons] at head
      cases head
      rw [going, input, output, reading] at under
      rcases under with ended | waiting | ⟨msg, member, -⟩
      · cases ended
      · cases waiting
      · cases member
  · cases rest

/-- Over every interleaving: where a connected client and its bridge have come to rest,
every callback that was registered has been invoked, but for those of calls that are not
through with `sendAsync`, or threw in it, and those of requests whose line ran into the
piece of one that failed. -/
theorem sent_requests_answered_at_rest {bridgeProjectPath : String} {s : WiredClient}
    (reached : Runs.Reaches (Step bridgeProjectPath) IdsLast {} s) (rest : atRest s = true) (cb : ResponseCallback)
    (registered : cb ∈ s.client.registered) :
    (∃ msg, (cb, msg) ∈ s.client.invoked) ∨ Sender.holding cb.id cb ∈ s.client.senders ∨
      s.client.pending.lookup cb.id = some cb ∧ (Waits s.client cb.id ∨ cb.id ∈ s.garbled) := by
  have kept := reaches_kept reached
  rcases kept.placed cb registered with mapped | holding | ⟨msg, queue, receiving⟩ |
    ⟨thenConnect, left, failing, -⟩ | invoked
  · exact .inr (.inr ⟨mapped, kept.pending_at_rest rest mapped⟩)
  · exact .inr (.inl holding)
  · simp [atRest, receiving] at rest
  · simp [atRest, failing] at rest
  · exact .inl invoked

/-- One request is answered, one is registered but not sent, and one threw as it was
written out. -/
theorem unsent_request_waits_at_rest :
    ∃ s, Runs.Reaches (Step "") IdsLast {} s ∧ atRest s = true ∧
      s.client.registered = [⟨0, 1⟩, ⟨1, 2⟩, ⟨2, 3⟩] ∧ s.client.invoked.map (fun entry => entry.1.call) = [0] ∧
      ∀ cb ∈ s.client.registered, (∃ msg, (cb, msg) ∈ s.client.invoked) ∨
        Sender.holding cb.id cb ∈ s.client.senders ∨
          s.client.pending.lookup cb.id = some cb ∧ (Waits s.client cb.id ∨ cb.id ∈ s.garbled) := by
  let ping : Json := .obj [("op", .str "ping")]
  let acts := connectActs ++ [.issue ping, .client (.register 0), .send 0, .handle 0 unasked, .recv 1,
    .client .dispatch, .client .deliver, .issue ping, .client (.register 0), .issue ping, .client (.register 0),
    .client (.dumpThrows 0)]
  have told : ((acts.foldlM (fun s act => if IdsLast s act then s.step "" act else none) {}).map fun s =>
      (atRest s, s.client.registered, s.client.invoked.map fun entry => entry.1.call)) =
        some (true, [⟨0, 1⟩, ⟨1, 2⟩, ⟨2, 3⟩], [0]) := by
    decide +kernel
  obtain ⟨s, ran, found⟩ := Option.map_eq_some_iff.mp told
  obtain ⟨rest, found⟩ := Prod.mk.inj found
  obtain ⟨registered, invoked⟩ := Prod.mk.inj found
  have reached := Runs.Reaches.start.foldlM_guarded ran
  exact ⟨s, reached, rest, registered, invoked, sent_requests_answered_at_rest reached rest⟩

end GhidraBridge.RequestsAtRest
