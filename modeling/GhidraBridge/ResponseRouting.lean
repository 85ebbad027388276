import Mathlib.Data.List.Perm.Basic
import GhidraBridge.BridgeClient

/-! The routing of responses. Every callback is in one place at a time: with its
sender until it is registered, then in the map, then with the one thread that took
it out, and in the end among those invoked. A step moves a callback from one place
to another or drops it, so none is invoked twice. -/
namespace GhidraBridge.ResponseRouting
open Lib BridgeClient

/-! ## Where the callbacks are -/

def heldBySender : Sender → List Nat
  | .issued cb | .holding _ cb => [cb.call]
  | .registered _ | .failed _ | .thrown _ => []

def heldByReceiver : Receiver → List Nat
  | .holding cb _ _ => [cb.call]
  | .reading _ | .ended => []

def heldByControl : Control → List Nat
  | .failing _ left => left.map fun entry => entry.2.call
  | _ => []

def heldPending (pending : Table Int32 ResponseCallback) : List Nat := pending.items.map fun entry => entry.2.call

/-- How many times the callback of a call is held somewhere or has been invoked. -/
def held (s : BridgeClient) (call : Nat) : Nat :=
  (s.senders.flatMap heldBySender).count call + (s.receiver.toList.flatMap heldByReceiver).count call +
    (heldByControl s.control).count call + (heldPending s.pending).count call +
    (s.invoked.map fun entry => entry.1.call).count call

def unregistered : Sender → List Nat
  | .issued cb => [cb.call]
  | _ => []

/-- How many times the callback of a call is yet to be registered or has been. -/
def begun (s : BridgeClient) (call : Nat) : Nat :=
  (s.senders.flatMap unregistered).count call + (s.registered.map ResponseCallback.call).count call

/-- A sender's step takes its own callbacks away and leaves those of the others. -/
theorem count_senders {s : BridgeClient} {i : Nat} {sender : Sender} (here : s.senders[i]? = some sender)
    (f : Sender → List Nat) (call : Nat) :
    (s.senders.flatMap f).count call = (f sender).count call + ((s.senders.eraseIdx i).flatMap f).count call := by
  obtain ⟨inside, rfl⟩ := List.getElem?_eq_some_iff.mp here
  have walked := (List.getElem_cons_eraseIdx_perm inside).flatMap_right f
  rw [List.flatMap_cons] at walked
  rw [← walked.count_eq, List.count_append]

theorem count_replaceSender (s : BridgeClient) (i : Nat) (next : Option Sender) (f : Sender → List Nat) (call : Nat) :
    ((s.replaceSender i next).flatMap f).count call =
      (next.toList.flatMap f).count call + ((s.senders.eraseIdx i).flatMap f).count call := by
  rw [replaceSender, List.flatMap_append, List.count_append]

theorem count_pending_erase {pending : Table Int32 ResponseCallback} {id : Int32} {cb : ResponseCallback}
    (found : pending.lookup id = some cb) (call : Nat) :
    (heldPending pending).count call = [cb.call].count call + (heldPending (pending.erase id)).count call := by
  have walked := (Table.items_perm_cons_erase found).map fun entry : Int32 × ResponseCallback => entry.2.call
  rw [heldPending, walked.count_eq, List.map_cons, List.count_cons, List.count_singleton, Nat.add_comm]
  rfl

theorem count_pending_set (pending : Table Int32 ResponseCallback) (id : Int32) (cb : ResponseCallback) (call : Nat) :
    (heldPending (pending.set id cb)).count call ≤ [cb.call].count call + (heldPending pending).count call := by
  have walked := (Table.items_set_perm pending id cb).map fun entry : Int32 × ResponseCallback => entry.2.call
  have others := (Table.items_erase_sublist pending id).map fun entry : Int32 × ResponseCallback => entry.2.call
  have fewer := others.count_le call
  rw [heldPending, walked.count_eq, List.map_cons, List.count_cons, List.count_singleton, Nat.add_comm]
  exact Nat.add_le_add_left fewer _

/-! ## At most once -/

/-- No callback is in two places, and none of a call yet to come is anywhere. -/
def Once (s : BridgeClient) : Prop := ∀ call, held s call ≤ if call < s.calls then 1 else 0

theorem once_of_le {s next : BridgeClient} (once : Once s) (sameCalls : next.calls = s.calls)
    (fewer : ∀ call, held next call ≤ held s call) : Once next := by
  intro call
  rw [sameCalls]
  exact (fewer call).trans (once call)

/-- A sender's step that gives away at most what the sender held. -/
theorem once_of_sender {s : BridgeClient} {i : Nat} {sender : Sender} {after : Option Sender}
    {pending : Table Int32 ResponseCallback} {registered : List ResponseCallback}
    {invoked : List (ResponseCallback × Json)}
    (once : Once s) (here : s.senders[i]? = some sender)
    (given : ∀ call, (after.toList.flatMap heldBySender).count call + (heldPending pending).count call +
        (invoked.map fun entry => entry.1.call).count call ≤
      (heldBySender sender).count call + (heldPending s.pending).count call +
        (s.invoked.map fun entry => entry.1.call).count call) :
    Once
      { s with
        pending := pending, registered := registered, invoked := invoked
        senders := s.replaceSender i after } := by
  refine once_of_le once rfl fun call => ?_
  have mine := count_senders here heldBySender call
  have given := given call
  simp only [held, count_replaceSender]
  omega

/-- A step of the receive thread between two callbacks. -/
theorem once_of_receiver {s : BridgeClient} {receiver : Option Receiver} {received : List Json} {running : Bool}
    (once : Once s) (same : receiver.toList.flatMap heldByReceiver = s.receiver.toList.flatMap heldByReceiver) :
    Once { s with receiver := receiver, received := received, running := running } := by
  refine once_of_le once rfl fun call => ?_
  simp only [held, same]
  exact Nat.le_refl _

/-- A step of a connect or a disconnect that takes no callback. -/
theorem once_of_control {s : BridgeClient} {control : Control} {sock running : Bool} {mark : Nat} (once : Once s)
    (same : heldByControl control = heldByControl s.control) :
    Once { s with control := control, sock := sock, running := running, mark := mark } := by
  refine once_of_le once rfl fun call => ?_
  simp only [held, same]
  exact Nat.le_refl _

/-- A call that begins is counted once, and its number has not been counted before. -/
theorem count_new_call {count calls call : Nat} (before : count ≤ if call < calls then 1 else 0) :
    (if calls == call then 1 else 0) + count ≤ if call < calls + 1 then 1 else 0 := by
  by_cases new : calls = call
  · subst new
    simp only [Nat.lt_irrefl, if_false, beq_self_eq_true, if_true, Nat.lt_succ_self] at before ⊢
    omega
  · simp only [beq_iff_eq, new, if_false]
    split at before <;> split <;> omega

theorem step_once {s next : BridgeClient} {act : Act} (once : Once s) (taken : Step s act next) : Once next := by
  cases taken.did with
  | issue =>
    intro call
    have counted := count_new_call (once call)
    simp only [held, List.flatMap_cons, heldBySender, List.count_append, List.count_singleton, ← Nat.add_assoc]
      at counted ⊢
    exact counted
  | @register i cb here =>
    refine once_of_sender once here fun call => ?_
    have inMap := count_pending_set s.pending cb.id cb call
    simp only [heldBySender, Option.toList_some, List.flatMap_cons, List.flatMap_nil, List.append_nil, List.count_nil]
    omega
  | dumpThrows here => exact once_of_sender once here fun _ => Nat.le_refl _
  | sent here => exact once_of_sender once here fun _ => Nat.le_refl _
  | notSent here => exact once_of_sender once here fun _ => Nat.le_refl _
  | gone here => exact once_of_sender once here fun _ => Nat.le_refl _
  | cleanUp here found =>
    refine once_of_sender once here fun call => ?_
    have fromMap := count_pending_erase found call
    simp only [heldBySender, Option.toList_some, List.flatMap_cons, List.flatMap_nil, List.append_nil, List.count_nil]
    omega
  | failSend here =>
    refine once_of_sender once here fun call => ?_
    simp only [heldBySender, Option.toList_none, List.flatMap_nil, List.count_nil, List.map_append, List.count_append,
      List.map_cons, List.map_nil]
    omega
  | recv reading => exact once_of_receiver once (by rw [reading]; rfl)
  | unanswered reading => exact once_of_receiver once (by rw [reading]; rfl)
  | dispatch reading answers found =>
    refine once_of_le once rfl fun call => ?_
    have fromMap := count_pending_erase found call
    simp only [held, reading, Option.toList_some, List.flatMap_cons, heldByReceiver, List.flatMap_nil, List.append_nil,
      List.count_nil]
    omega
  | deliver holding =>
    refine once_of_le once rfl fun call => ?_
    simp only [held, holding, Option.toList_some, List.flatMap_cons, heldByReceiver, List.flatMap_nil, List.append_nil,
      List.count_nil, List.map_append, List.count_append, List.map_cons, List.map_nil]
    omega
  | endLoop reading => exact once_of_receiver once (by rw [reading]; rfl)
  | disconnect idle => exact once_of_control once (by rw [idle]; rfl)
  | close stopped => exact once_of_control once (by rw [stopped]; rfl)
  | join closed =>
    refine once_of_le once rfl fun call => ?_
    simp only [held, closed, heldByControl, Option.toList_none, List.flatMap_nil, List.count_nil]
    omega
  | swap joined =>
    refine once_of_le once rfl fun call => ?_
    have emptied : heldPending ∅ = [] := rfl
    simp only [held, joined, heldByControl, emptied, List.count_nil]
    rw [heldPending]
    omega
  | failPending failing =>
    refine once_of_le once rfl fun call => ?_
    simp only [held, failing, heldByControl, List.map_append, List.count_append, List.map_cons, List.map_nil,
      List.count_cons, List.count_nil]
    omega
  | @disconnected thenConnect failing =>
    refine once_of_control once ?_
    rw [failing]
    cases thenConnect <;> rfl
  | connected connecting => exact once_of_control once (by rw [connecting]; rfl)
  | notConnected connecting => exact once_of_control once (by rw [connecting]; rfl)
  | startLoop opened =>
    refine once_of_le once rfl fun call => ?_
    simp only [held, opened, heldByControl, Option.toList_some, List.flatMap_cons, heldByReceiver, List.flatMap_nil,
      List.append_nil, List.count_nil]
    omega

/-- No call registers twice. -/
def RegistersOnce (s : BridgeClient) : Prop := ∀ call, begun s call ≤ if call < s.calls then 1 else 0

/-- A sender's step after it has registered its callback. -/
theorem registersOnce_of_sender {s : BridgeClient} {i : Nat} {sender : Sender} {after : Option Sender}
    {pending : Table Int32 ResponseCallback} {invoked : List (ResponseCallback × Json)} (once : RegistersOnce s)
    (here : s.senders[i]? = some sender) (given : after.toList.flatMap unregistered = []) :
    RegistersOnce { s with pending := pending, invoked := invoked, senders := s.replaceSender i after } := by
  intro call
  have mine := count_senders here unregistered call
  have before := once call
  simp only [begun, count_replaceSender, given, List.count_nil] at before ⊢
  omega

theorem step_registersOnce {s next : BridgeClient} {act : Act} (once : RegistersOnce s) (taken : Step s act next) :
    RegistersOnce next := by
  cases taken.did with
  | issue =>
    intro call
    have counted := count_new_call (once call)
    simp only [begun, List.flatMap_cons, unregistered, List.count_append, List.count_singleton, ← Nat.add_assoc]
      at counted ⊢
    exact counted
  | register here =>
    intro call
    have mine := count_senders here unregistered call
    have before := once call
    simp only [begun, count_replaceSender, unregistered, Option.toList_some, List.flatMap_cons, List.flatMap_nil,
      List.append_nil, List.count_nil, List.map_append, List.map_cons, List.map_nil, List.count_append] at before mine ⊢
    omega
  | dumpThrows here => exact registersOnce_of_sender once here rfl
  | sent here => exact registersOnce_of_sender once here rfl
  | notSent here => exact registersOnce_of_sender once here rfl
  | gone here => exact registersOnce_of_sender once here rfl
  | cleanUp here => exact registersOnce_of_sender once here rfl
  | failSend here => exact registersOnce_of_sender once here rfl
  | _ => exact once

/-! ## The right answers -/

/-- A message received whose id the client reads as the one asked for. -/
def Answered (received : List Json) (cb : ResponseCallback) (msg : Json) : Prop :=
  msg ∈ received ∧ answeredId msg = some cb.id

/-- The callback's entry under its own id, and the answers under way to the right one. -/
structure Routed (s : BridgeClient) : Prop where
  pending : ∀ id cb, s.pending.lookup id = some cb → cb.id = id
  senders : ∀ id cb, Sender.holding id cb ∈ s.senders → cb.id = id
  failing : ∀ thenConnect left, s.control = .failing thenConnect left → ∀ entry ∈ left, entry.2.id = entry.1
  reading : ∀ queue, s.receiver = some (.reading queue) → ∀ msg ∈ queue, msg ∈ s.received
  holding : ∀ cb msg queue, s.receiver = some (.holding cb msg queue) →
    Answered s.received cb msg ∧ ∀ later ∈ queue, later ∈ s.received
  invoked : ∀ entry ∈ s.invoked, Answered s.received entry.1 entry.2 ∨ entry.2 = sendFailed entry.1.id ∨
    entry.2 = BridgeClient.disconnected entry.1.id

theorem holding_of_replaceSender {s : BridgeClient} {i : Nat} {after : Option Sender} {id : Int32}
    {cb : ResponseCallback} (routed : Routed s) (own : after = some (.holding id cb) → cb.id = id)
    (there : Sender.holding id cb ∈ s.replaceSender i after) : cb.id = id := by
  rcases List.mem_append.mp there with new | old
  · exact own (Option.mem_toList.mp new)
  · exact routed.senders id cb (List.mem_of_mem_eraseIdx old)

/-- A sender's step that takes no callback out of the map. -/
theorem Routed.sends {s : BridgeClient} (routed : Routed s) {i : Nat} {after : Option Sender}
    (takesNone : ∀ id cb, after ≠ some (.holding id cb)) : Routed { s with senders := s.replaceSender i after } :=
  { routed with
    senders := fun id cb there => holding_of_replaceSender routed (fun same => absurd same (takesNone id cb)) there }

/-- A step of a connect or a disconnect that leaves no callback to be failed. -/
theorem Routed.controls {s : BridgeClient} (routed : Routed s) {control : Control} {sock running : Bool} {mark : Nat}
    (failsNone : ∀ thenConnect left, control ≠ .failing thenConnect left) :
    Routed { s with control := control, sock := sock, running := running, mark := mark } :=
  { routed with failing := fun thenConnect left now => absurd now (failsNone thenConnect left) }

theorem invoked_append {s : BridgeClient} (routed : Routed s) {cb : ResponseCallback} {msg : Json}
    (right : Answered s.received cb msg ∨ msg = sendFailed cb.id ∨ msg = BridgeClient.disconnected cb.id) :
    ∀ entry ∈ s.invoked ++ [(cb, msg)], Answered s.received entry.1 entry.2 ∨ entry.2 = sendFailed entry.1.id ∨
      entry.2 = BridgeClient.disconnected entry.1.id := by
  intro entry there
  rcases List.mem_append.mp there with old | new
  · exact routed.invoked entry old
  · cases List.mem_singleton.mp new
    exact right

theorem step_routed {s next : BridgeClient} {act : Act} (routed : Routed s) (taken : Step s act next) :
    Routed next := by
  cases taken.did with
  | issue =>
    refine { routed with senders := fun id cb there => ?_ }
    rcases List.mem_cons.mp there with new | old
    · cases new
    · exact routed.senders id cb old
  | @register i own here =>
    refine { routed with pending := fun id cb found => ?_, senders := fun id cb there => ?_ }
    · rw [Table.lookup_set] at found
      split at found
      · rename_i same
        cases found
        exact same.symm
      · exact routed.pending id cb found
    · exact holding_of_replaceSender routed (fun same => by cases same) there
  | dumpThrows here => exact routed.sends (by simp)
  | sent here => exact routed.sends (by simp)
  | notSent here => exact routed.sends (by simp)
  | gone here => exact routed.sends (by simp)
  | cleanUp here found =>
    refine { routed with pending := fun id cb held => ?_, senders := fun id cb there => ?_ }
    · exact routed.pending id cb (Table.of_lookup_erase held).2
    · refine holding_of_replaceSender routed (fun same => ?_) there
      cases same
      exact routed.pending _ _ found
  | @failSend i id cb here =>
    have own : cb.id = id := routed.senders id cb (List.mem_of_getElem? here)
    refine
      { routed with
        senders := fun id cb there => holding_of_replaceSender routed (fun same => by cases same) there
        invoked := invoked_append routed (.inr (.inl ?_)) }
    rw [own]
  | recv reading =>
    refine
      { routed with
        reading := fun queue now msg there => ?_
        holding := fun _ _ _ now => by cases now
        invoked := fun entry there => ?_ }
    · cases now
      exact List.mem_append_right _ there
    · rcases routed.invoked entry there with answered | own
      · exact .inl ⟨List.mem_append_left _ answered.1, answered.2⟩
      · exact .inr own
  | unanswered reading =>
    refine { routed with reading := fun queue now msg there => ?_, holding := fun _ _ _ now => by cases now }
    cases now
    exact routed.reading _ reading msg (List.mem_cons_of_mem _ there)
  | dispatch reading answers found =>
    refine
      { routed with
        pending := fun id cb held => routed.pending id cb (Table.of_lookup_erase held).2
        reading := fun _ now => by cases now
        holding := fun cb msg queue now => ?_ }
    cases now
    refine ⟨⟨routed.reading _ reading _ List.mem_cons_self, ?_⟩, fun later there => ?_⟩
    · rw [answers, routed.pending _ _ found]
    · exact routed.reading _ reading later (List.mem_cons_of_mem _ there)
  | deliver held =>
    obtain ⟨answered, later⟩ := routed.holding _ _ _ held
    refine
      { routed with
        reading := fun queue now msg there => ?_
        holding := fun _ _ _ now => by cases now
        invoked := invoked_append routed (.inl answered) }
    cases now
    exact later msg there
  | endLoop reading =>
    exact { routed with reading := fun _ now => (by cases now), holding := fun _ _ _ now => (by cases now) }
  | disconnect idle => exact routed.controls (by simp)
  | close stopped => exact routed.controls (by simp)
  | join closed =>
    exact
      { routed with
        failing := fun _ _ now => by cases now
        reading := fun _ now => by cases now
        holding := fun _ _ _ now => by cases now }
  | swap joined =>
    refine { routed with pending := fun id cb found => ?_, failing := fun thenConnect left now entry there => ?_ }
    · cases found
    · cases now
      exact routed.pending _ _ (Table.mem_items.mp there)
  | @failPending thenConnect id cb left failing =>
    have own : cb.id = id := routed.failing _ _ failing (id, cb) List.mem_cons_self
    refine
      { routed with
        failing := fun thenConnect left now entry there => ?_
        invoked := invoked_append routed (.inr (.inr ?_)) }
    · cases now
      exact routed.failing _ _ failing entry (List.mem_cons_of_mem _ there)
    · rw [own]
  | @disconnected thenConnect failing => exact routed.controls (by cases thenConnect <;> simp)
  | connected connecting => exact routed.controls (by simp)
  | notConnected connecting => exact routed.controls (by simp)
  | startLoop opened =>
    refine
      { routed with
        failing := fun _ _ now => by cases now
        reading := fun queue now msg there => ?_
        holding := fun _ _ _ now => by cases now }
    cases now
    cases there

/-! ## What a disconnect leaves -/

/-- Once the map has been taken away, what is in it was registered after the
disconnect began. -/
structure Marked (s : BridgeClient) : Prop where
  within : s.mark ≤ s.registered.length
  fresh : ∀ thenConnect left, s.control = .failing thenConnect left → ∀ id cb, s.pending.lookup id = some cb →
    cb ∈ s.registered.drop s.mark

theorem step_marked {s next : BridgeClient} {act : Act} (marked : Marked s) (taken : Step s act next) :
    Marked next := by
  cases taken.did with
  | register here =>
    constructor
    · dsimp only
      rw [List.length_append]
      exact Nat.le_add_right_of_le marked.within
    · intro thenConnect left failing id cb found
      dsimp only at failing found ⊢
      rw [List.drop_append_of_le_length marked.within]
      rw [Table.lookup_set] at found
      split at found
      · cases found
        exact List.mem_append_right _ List.mem_cons_self
      · exact List.mem_append_left _ (marked.fresh thenConnect left failing id cb found)
  | cleanUp here found =>
    refine { marked with fresh := fun _ _ failing id cb held => ?_ }
    exact marked.fresh _ _ failing id cb (Table.of_lookup_erase held).2
  | dispatch reading answers found =>
    refine { marked with fresh := fun _ _ failing id cb held => ?_ }
    exact marked.fresh _ _ failing id cb (Table.of_lookup_erase held).2
  | disconnect idle => exact { within := Nat.le_refl _, fresh := fun _ _ now => by cases now }
  | close stopped => exact { marked with fresh := fun _ _ now => by cases now }
  | join closed => exact { marked with fresh := fun _ _ now => by cases now }
  | swap joined => exact { marked with fresh := fun _ _ _ _ _ found => by cases found }
  | failPending failing => exact { marked with fresh := fun _ _ _ => marked.fresh _ _ failing }
  | @disconnected thenConnect failing =>
    refine { marked with fresh := fun _ _ now => ?_ }
    cases thenConnect <;> cases now
  | connected connecting => exact { marked with fresh := fun _ _ now => by cases now }
  | notConnected connecting => exact { marked with fresh := fun _ _ now => by cases now }
  | startLoop opened => exact { marked with fresh := fun _ _ now => by cases now }
  | _ => exact { marked with }

/-! ## Every interleaving -/

structure Inv (s : BridgeClient) : Prop where
  once : Once s
  registersOnce : RegistersOnce s
  routed : Routed s
  marked : Marked s

theorem inv_start : Inv {} where
  once _ := Nat.zero_le _
  registersOnce _ := Nat.zero_le _
  routed :=
    { pending := fun _ _ found => by cases found
      senders := fun _ _ there => by cases there
      failing := fun _ _ now => by cases now
      reading := fun _ now => by cases now
      holding := fun _ _ _ now => by cases now
      invoked := fun _ there => by cases there }
  marked := { within := Nat.le_refl _, fresh := fun _ _ now => by cases now }

theorem step_inv {s next : BridgeClient} {act : Act} (inv : Inv s) (taken : Step s act next) : Inv next where
  once := step_once inv.once taken
  registersOnce := step_registersOnce inv.registersOnce taken
  routed := step_routed inv.routed taken
  marked := step_marked inv.marked taken

theorem reaches_inv {guard : BridgeClient → Act → Prop} {s : BridgeClient} (reached : Runs.Reaches Step guard {} s) :
    Inv s :=
  reached.invariant inv_start fun _ _ _ inv _ taken => step_inv inv taken

theorem invoked_nodup {s : BridgeClient} (once : Once s) : (s.invoked.map fun entry => entry.1.call).Nodup := by
  refine List.nodup_iff_count_le_one.mpr fun call => ?_
  have here := once call
  unfold held at here
  split at here <;> omega

theorem registered_nodup {s : BridgeClient} (once : RegistersOnce s) : s.registered.Nodup := by
  refine List.Nodup.of_map ResponseCallback.call (List.nodup_iff_count_le_one.mpr fun call => ?_)
  have here := once call
  unfold begun at here
  split at here <;> omega

theorem not_pending_after_disconnect {s next : BridgeClient} (inv : Inv s) (done : Step s .disconnected next)
    {id : Int32} {cb : ResponseCallback} (found : next.pending.lookup id = some cb) :
    cb ∉ s.registered.take s.mark := by
  cases done.did with
  | disconnected failing =>
    have fresh := inv.marked.fresh _ _ failing id cb found
    intro early
    exact List.disjoint_take_drop (registered_nodup inv.registersOnce) (Nat.le_refl _) early fresh

/-- Over every interleaving no callback is invoked twice, and each only with a
message received whose id is read as its own or with one of the client's own errors
for its id. Right after a disconnect no request registered before it is pending. -/
theorem responses_routed_once {s : BridgeClient} (reached : Runs.Reaches Step (fun _ _ => True) {} s) :
    (s.invoked.map fun entry => entry.1.call).Nodup ∧
      (∀ entry ∈ s.invoked, Answered s.received entry.1 entry.2 ∨ entry.2 = sendFailed entry.1.id ∨
        entry.2 = BridgeClient.disconnected entry.1.id) ∧
      ∀ next, Step s .disconnected next → ∀ id cb, next.pending.lookup id = some cb →
        cb ∉ s.registered.take s.mark := by
  have inv := reaches_inv reached
  refine ⟨invoked_nodup inv.once, inv.routed.invoked, fun _ done _ _ found => ?_⟩
  exact not_pending_after_disconnect inv done found

theorem answered_and_failed_routed :
    ∃ s, Runs.Reaches Step (fun _ _ => True) {} s ∧
      s.invoked = [(⟨0, 1⟩, .obj [("id", .int 1)]), (⟨1, 2⟩, BridgeClient.disconnected 2)] ∧
      (s.invoked.map fun entry => entry.1.call).Nodup ∧
      ∀ next, Step s .disconnected next → ∀ id cb, next.pending.lookup id = some cb →
        cb ∉ s.registered.take s.mark := by
  let acts := connectActs ++
    [.issue, .register 0, .issue, .register 0, .send 0 true, .recv [.obj [("id", .int 1)]], .disconnect false,
      .dispatch, .close, .deliver, .endLoop, .join, .swap, .failPending]
  obtain ⟨s, ran, invoked⟩ : ∃ s, acts.foldlM step {} = some s ∧
      s.invoked = [(⟨0, 1⟩, .obj [("id", .int 1)]), (⟨1, 2⟩, BridgeClient.disconnected 2)] := ⟨_, rfl, rfl⟩
  have reached := Runs.Reaches.start.foldlM (fun _ _ _ => trivial) ran
  obtain ⟨once, -, done⟩ := responses_routed_once reached
  exact ⟨s, reached, invoked, once, done⟩

/-- The client reads an id as a 32-bit one: a message with the id 2^32 + 1 is given to
the callback of the request with the id 1. -/
theorem wider_id_answers :
    ∃ s, Runs.Reaches Step (fun _ _ => True) {} s ∧ s.invoked = [(⟨0, 1⟩, .obj [("id", .int 4294967297)])] ∧
      ¬∀ entry ∈ s.invoked, entry.2.get? "id" = some (int32Json entry.1.id) := by
  let acts := connectActs ++
    [.issue, .register 0, .send 0 true, .recv [.obj [("id", .int 4294967297)]], .dispatch, .deliver]
  obtain ⟨s, ran, invoked⟩ : ∃ s, acts.foldlM step {} = some s ∧
      s.invoked = [(⟨0, 1⟩, .obj [("id", .int 4294967297)])] := ⟨_, rfl, rfl⟩
  refine ⟨s, Runs.Reaches.start.foldlM (fun _ _ _ => trivial) ran, invoked, fun own => ?_⟩
  have carried := own (⟨0, 1⟩, .obj [("id", .int 4294967297)]) (by rw [invoked]; exact List.mem_cons_self)
  have other : (4294967297 : Int) = (1 : Int32).toInt := by injection (Option.some.inj carried)
  exact absurd other (by decide)

end GhidraBridge.ResponseRouting
