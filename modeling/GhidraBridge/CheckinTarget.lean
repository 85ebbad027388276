import GhidraBridge.ProjectPanel

/-! The item a check-in goes to. The connection holds one target for the whole
process, the panel collects from whichever view it shows; a preview that waits
for its review or for its worker is outstanding, and is sent to the target of
the moment it is sent at. -/
namespace GhidraBridge.CheckinTarget
open Lib
variable {View : Type} [DecidableEq View] (place : View → Option ProjectFile)

/-- The view was last imported from the item, or one of its own entries names it. -/
def Owns (s : Panel View) (view : View) (item : Item) : Prop :=
  s.importedFrom view = some item ∨ item ∈ s.metadata.linkedItems place view

/-- The request names an item that the view of its changes belonged to. -/
def Right (request : SentCheckin View) : Prop :=
  request.importedFrom = some request.target ∨ request.target ∈ request.linkedTo

/-- The view a queued check-in has its changes from. -/
def collectedFrom : Worker View → Option View
  | .checkin (some _) collectedFrom _ _ => some collectedFrom
  | _ => none

/-- The views whose previews are not sent yet. -/
def outstanding (s : Panel View) : List View := s.reviews.map Review.view ++ s.workers.filterMap collectedFrom

/-- Changes are collected only from a view that owns the target. -/
def CollectsOwned (s : Panel View) : Prop :=
  ∀ view, s.currentView = some view →
    (s.conn.checkinState.collectCheckinChanges (s.contents view)).empty = false → Owns place s view s.conn.target

/-- A worker that replaces the target leaves no outstanding preview to another item. -/
def StoresOwned (s : Panel View) : Worker View → Prop
  | .importItem item view => ∀ held ∈ outstanding s, view = some held ∨ Owns place s held item
  | .restore item _ => ∀ held ∈ outstanding s, Owns place s held item
  | _ => True

/-- Collecting and storing keep every preview with an item of its view. -/
def Keeps (s : Panel View) : Panel.Label View → Prop
  | .doCheckin _ => CollectsOwned place s
  | .callback i _ => ∀ callback, s.callbacks[i]? = some callback → callback = .collect → CollectsOwned place s
  | .work i opened _ =>
    ∀ worker, s.workers[i]? = some worker → opened.isOk = true → StoresOwned place s worker
  | _ => True

/-- Whatever is outstanding may be sent now, and whatever was sent was right. -/
structure Inv (s : Panel View) : Prop where
  owned : s.conn.checkinState.hasCheckinState = true → ∀ view ∈ outstanding s, Owns place s view s.conn.target
  right : ∀ request ∈ s.sent, Right request

/-- A step that collects nothing, stores no target and sends nothing. -/
structure Quiet (s next : Panel View) : Prop where
  outstanding : ∀ view ∈ outstanding next, view ∈ CheckinTarget.outstanding s
  held : next.conn.checkinState.hasCheckinState = true →
    s.conn.checkinState.hasCheckinState = true ∧ next.conn.target = s.conn.target
  owns : ∀ view item, Owns place s view item → Owns place next view item
  sent : next.sent = s.sent

variable {place}

theorem Quiet.inv {s next : Panel View} (quiet : Quiet place s next) (inv : Inv place s) : Inv place next := by
  refine ⟨?_, ?_⟩
  · intro held view member
    obtain ⟨before, same⟩ := quiet.held held
    rw [same]
    exact quiet.owns view _ (inv.owned before view (quiet.outstanding view member))
  · rw [quiet.sent]
    exact inv.right

theorem Quiet.refl (s : Panel View) : Quiet place s s :=
  ⟨fun _ member => member, fun held => ⟨held, rfl⟩, fun _ _ owned => owned, rfl⟩

/-- Steps on the connection alone. -/
theorem Quiet.conn (s : Panel View) (conn : GhidraConnection)
    (state : conn.checkinState = s.conn.checkinState) : Quiet place s { s with conn } := by
  refine ⟨fun _ member => member, ?_, fun _ _ owned => owned, rfl⟩
  intro held
  rw [state] at held
  refine ⟨held, ?_⟩
  unfold GhidraConnection.target
  rw [state]

omit [DecidableEq View] in
theorem mem_outstanding {s : Panel View} {view : View} :
    view ∈ outstanding s ↔
      (∃ review ∈ s.reviews, review.view = view) ∨ ∃ worker ∈ s.workers, collectedFrom worker = some view := by
  simp only [outstanding, List.mem_append, List.mem_map, List.mem_filterMap]

omit [DecidableEq View] in
theorem outstanding_enqueue {s : Panel View} {worker : Worker View} {view : View} :
    view ∈ outstanding (s.enqueue worker) ↔ view ∈ outstanding s ∨ collectedFrom worker = some view := by
  simp only [mem_outstanding, Panel.enqueue, List.mem_append, List.mem_singleton, or_and_right, exists_or,
    exists_eq_left, or_assoc]

/-- Work that has collected nothing. -/
theorem Quiet.enqueue (s : Panel View) {worker : Worker View} (none : collectedFrom worker = none) :
    Quiet place s (s.enqueue worker) := by
  refine ⟨?_, fun held => ⟨held, rfl⟩, fun _ _ owned => owned, rfl⟩
  intro view member
  rcases outstanding_enqueue.mp member with before | queued
  · exact before
  · rw [none] at queued
    cases queued

/-! ## Entries of a view -/

theorem mem_linkedItems {m : Metadata View} {view : View} {item : Item} :
    item ∈ m.linkedItems place view ↔
      (∃ entry, (∃ file, place view = some file ∧ m.file.lookup file = some entry) ∧ entry.target = item) ∨
        ∃ link, m.view.lookup view = some link ∧ link.target = item := by
  simp [Metadata.linkedItems, Option.bind_eq_some_iff]

/-- Writing a file entry keeps what the entries name, where the entry names what
the one before it named. -/
theorem linkedItems_setFile (m : Metadata View) {file : ProjectFile} {entry : FileEntry} {view : View} {item : Item}
    (kept : ∀ old, m.file.lookup file = some old → old.target = item → entry.target = item)
    (server : Table String ServerEntry) (named : item ∈ m.linkedItems place view) :
    item ∈ { m with server, file := m.file.set file entry }.linkedItems place view := by
  rw [mem_linkedItems] at named ⊢
  rcases named with ⟨old, ⟨own, placed, found⟩, target⟩ | ofView
  · left
    by_cases same : own = file
    · subst same
      refine ⟨entry, ⟨own, placed, ?_⟩, kept old found target⟩
      rw [Table.lookup_set, if_pos rfl]
    · refine ⟨old, ⟨own, placed, ?_⟩, target⟩
      rw [Table.lookup_set, if_neg same]
      exact found
  · exact .inr ofView

theorem linkedItems_setView (m : Metadata View) (into : View) {link : GhidraLink} {view : View}
    (named : link.target ∈ m.linkedItems place view) :
    link.target ∈ { m with view := m.view.set into link }.linkedItems place view := by
  rw [mem_linkedItems] at named ⊢
  rcases named with ofProject | ⟨old, found, target⟩
  · exact .inl ofProject
  · right
    by_cases same : view = into
    · refine ⟨link, ?_, rfl⟩
      rw [Table.lookup_set, if_pos same]
    · refine ⟨old, ?_, target⟩
      rw [Table.lookup_set, if_neg same]
      exact found

theorem linkedItems_setCheckedOut (m : Metadata View) (shown : Option View) (val : Bool) {view : View} {item : Item}
    (named : item ∈ m.linkedItems place view) :
    item ∈ (m.setCheckedOut place shown val).linkedItems place view := by
  unfold Metadata.setCheckedOut
  split
  · exact named
  · rename_i file _
    split
    · exact named
    · rename_i entry found
      refine linkedItems_setFile m ?_ m.server named
      intro old same target
      rw [found] at same
      cases same
      exact target

theorem linkedItems_migrate (m : Metadata View) (shown : View) {view : View} {item : Item}
    (named : item ∈ m.linkedItems place view) :
    item ∈ (m.migrateStandaloneMetadata place shown).linkedItems place view := by
  unfold Metadata.migrateStandaloneMetadata
  split
  · split
    · exact named
    · rename_i absent
      refine linkedItems_setFile m ?_ _ named
      intro old found _
      rw [← AList.lookup_isSome, found] at absent
      exact absurd rfl absent
  · exact named

/-- An import writes only entries that name its item. -/
theorem linkedItems_storeLink (m : Metadata View) (into : View) {link : GhidraLink} {view : View}
    (named : link.target ∈ m.linkedItems place view) :
    link.target ∈ (m.storeLink place into link).linkedItems place view := by
  unfold Metadata.storeLink
  dsimp only
  split
  · exact linkedItems_setView m into named
  · exact linkedItems_setView _ into (linkedItems_setFile m (fun _ _ _ => rfl) _ named)

/-! ## The steps of the user interface thread -/

/-- A change of the panel's own members that keeps what entries name. -/
theorem Quiet.shown (s : Panel View) {currentView : Option View} {linkedGhidra : GhidraLink} {checkedOut : Bool}
    {metadata : Metadata View}
    (named : ∀ view item, item ∈ s.metadata.linkedItems place view → item ∈ metadata.linkedItems place view) :
    Quiet place s { s with currentView, linkedGhidra, checkedOut, metadata } := by
  refine ⟨fun _ member => member, fun held => ⟨held, rfl⟩, ?_, rfl⟩
  intro view item owned
  exact owned.imp id (named view item)

theorem quiet_notifyViewChanged (s : Panel View) (view : Option View) :
    Quiet place s (s.notifyViewChanged place view) := by
  have unlinked : ∀ link out, Quiet place s
      { s with currentView := view, linkedGhidra := link, checkedOut := out } :=
    fun link out => Quiet.shown s fun _ _ named => named
  unfold Panel.notifyViewChanged
  cases view with
  | none => exact unlinked _ _
  | some shown =>
    have migrated : ∀ link out, Quiet place s
        { s with
          currentView := some shown, linkedGhidra := link, checkedOut := out
          metadata := s.metadata.migrateStandaloneMetadata place shown } :=
      fun link out => Quiet.shown s fun _ _ => linkedItems_migrate _ _
    dsimp only
    split
    · split
      · exact unlinked _ _
      · split
        · exact unlinked _ _
        · exact migrated _ _
    · split
      · exact unlinked _ _
      · split
        · exact unlinked _ _
        · exact migrated _ _

theorem quiet_persistCheckedOutState (s : Panel View) (link : GhidraLink) (val : Bool) :
    Quiet place s ({ s with linkedGhidra := link }.persistCheckedOutState place val) :=
  Quiet.shown s fun _ _ => linkedItems_setCheckedOut _ _ _

/-- A collected preview is outstanding from then on. -/
theorem inv_doCheckinWithState {s : Panel View} (inv : Inv place s) (owned : CollectsOwned place s) (release : Bool) :
    Inv place (s.doCheckinWithState release) := by
  unfold Panel.doCheckinWithState
  split
  · exact inv
  · rename_i view shown
    dsimp only
    split
    · split
      · exact (Quiet.enqueue s rfl).inv inv
      · exact inv
    · rename_i changed
      refine ⟨?_, inv.right⟩
      intro held other member
      have before : other ∈ outstanding s → Owns place s other s.conn.target := inv.owned held other
      rw [mem_outstanding] at before
      rcases mem_outstanding.mp member with ⟨review, waiting, same⟩ | queued
      · rcases List.mem_append.mp waiting with earlier | here
        · exact before (.inl ⟨review, earlier, same⟩)
        · obtain rfl := List.mem_singleton.mp here
          subst same
          exact owned view shown (Bool.not_eq_true _ ▸ changed)
      · exact before (.inr queued)

theorem inv_doCheckin {s : Panel View} (inv : Inv place s) (owned : CollectsOwned place s) (release : Bool) :
    Inv place (s.doCheckin release) := by
  unfold Panel.doCheckin
  split
  · exact inv
  · split
    · split
      · exact (Quiet.enqueue s rfl).inv inv
      · exact inv
    · exact inv_doCheckinWithState inv owned release

/-- A review hands its preview on or drops it. -/
theorem quiet_closeReview (s : Panel View) (i : Nat) (comment : Option String) :
    Quiet place s (s.closeReview i comment) := by
  unfold Panel.closeReview
  split
  · exact Quiet.refl s
  · rename_i review found
    have closed : ∀ view, view ∈ outstanding { s with reviews := s.reviews.eraseIdx i } → view ∈ outstanding s := by
      intro view member
      rw [mem_outstanding] at member ⊢
      refine member.imp ?_ id
      rintro ⟨other, kept, same⟩
      exact ⟨other, List.mem_of_mem_eraseIdx kept, same⟩
    cases comment with
    | none => exact ⟨closed, fun held => ⟨held, rfl⟩, fun _ _ owned => owned, rfl⟩
    | some comment =>
      refine ⟨?_, fun held => ⟨held, rfl⟩, fun _ _ owned => owned, rfl⟩
      intro view member
      rcases outstanding_enqueue.mp member with kept | queued
      · exact closed view kept
      · have handed : review.view = view := by
          cases shown : s.currentView with
          | none =>
            rw [shown] at queued
            cases queued
          | some current =>
            rw [shown] at queued
            exact Option.some.inj queued
        exact mem_outstanding.mpr (.inl ⟨review, List.mem_of_getElem? found, handed⟩)

theorem inv_runCallback {s : Panel View} (inv : Inv place s) (release : Bool) (callback : Callback)
    (owned : callback = .collect → CollectsOwned place s) : Inv place (s.runCallback place release callback) := by
  cases callback with
  | imported link => exact (quiet_persistCheckedOutState s link true).inv inv
  | collect => exact inv_doCheckinWithState inv (owned rfl) release
  | release => exact (quiet_persistCheckedOutState s s.linkedGhidra false).inv inv

/-! ## The steps of the workers -/

/-- Storing a check-in state for an item every outstanding view owns afterwards. -/
theorem inv_stored {s next : Panel View} (inv : Inv place s) (item : Item)
    (target : next.conn.target = item) (waiting : outstanding next = outstanding s) (sent : next.sent = s.sent)
    (owned : ∀ view ∈ outstanding s, Owns place next view item) : Inv place next := by
  refine ⟨?_, ?_⟩
  · intro _ view member
    rw [target]
    rw [waiting] at member
    exact owned view member
  · rw [sent]
    exact inv.right

theorem inv_finishImport {s : Panel View} (inv : Inv place s) (item : Item) (view : Option View)
    (data : GhidraDbExport) (owned : StoresOwned place s (.importItem item view)) :
    Inv place (s.finishImport place item view data) := by
  unfold Panel.finishImport
  cases view with
  | none =>
    refine inv_stored inv item rfl rfl rfl ?_
    intro held member
    rcases owned held member with same | owns
    · cases same
    · exact owns
  | some into =>
    refine inv_stored inv item rfl rfl rfl ?_
    intro held member
    by_cases same : held = into
    · left
      subst same
      exact Function.update_self held (some item) s.importedFrom
    · rcases owned held member with imported | ⟨before⟩ | linked
      · cases imported
        exact absurd rfl same
      · left
        exact (Function.update_of_ne same (some item) s.importedFrom).trans before
      · exact .inr (linkedItems_storeLink s.metadata into linked)

theorem inv_finishCheckin {s : Panel View} (inv : Inv place s) (view collected : View)
    (preview : GhidraCheckinPreview) (comment : String) (send : Json → Except String Json)
    (owned : s.conn.checkinState.hasCheckinState = true → Owns place s collected s.conn.target) :
    Inv place (s.finishCheckin place view collected preview comment send) := by
  have right : ∀ request ∈ (if s.conn.sendsCheckin then s.sent ++ [s.sentCheckin place collected] else s.sent),
      Right request := by
    intro request member
    split at member
    · rename_i sends
      rcases List.mem_append.mp member with before | here
      · exact inv.right request before
      · obtain rfl := List.mem_singleton.mp here
        exact owned (ServerSession.session_of_sends sends).2
    · exact inv.right request member
  have target := s.conn.checkin_target (s.contents view) preview comment send
  unfold Panel.finishCheckin
  dsimp only
  split
  · refine ⟨?_, right⟩
    intro held
    cases held
  · refine ⟨?_, right⟩
    intro held other member
    rw [(s.conn.checkin_session (s.contents view) preview comment send).2] at held
    rw [target]
    exact inv.owned held other member

omit [DecidableEq View] in
/-- A worker that leaves the queue takes its preview with it. -/
theorem outstanding_eraseWorker {s : Panel View} {i : Nat} {view : View}
    (member : view ∈ outstanding { s with workers := s.workers.eraseIdx i }) : view ∈ outstanding s := by
  rw [mem_outstanding] at member ⊢
  refine member.imp id ?_
  rintro ⟨worker, kept, same⟩
  exact ⟨worker, List.mem_of_mem_eraseIdx kept, same⟩

theorem inv_work {s : Panel View} (inv : Inv place s) {i : Nat} {worker : Worker View}
    (queued : s.workers[i]? = some worker) (opened : Except String GhidraDbExport)
    (send : Json → Except String Json) (owned : opened.isOk = true → StoresOwned place s worker) :
    Inv place ({ s with workers := s.workers.eraseIdx i }.runWorker place opened send worker) := by
  have left : Inv place { s with workers := s.workers.eraseIdx i } :=
    Quiet.inv ⟨fun _ => outstanding_eraseWorker, fun held => ⟨held, rfl⟩, fun _ _ owns => owns, rfl⟩ inv
  cases worker with
  | importItem item view =>
    cases opened with
    | error what => exact left
    | ok data =>
      refine inv_finishImport left item view data ?_
      intro held member
      exact owned rfl held (outstanding_eraseWorker member)
  | restore item view =>
    cases opened with
    | error what => exact left
    | ok data =>
      refine inv_stored left item rfl rfl rfl ?_
      intro held member
      exact owned rfl held (outstanding_eraseWorker member)
  | terminate =>
    refine ⟨?_, left.right⟩
    intro held
    cases held
  | checkin view collected preview comment =>
    cases view with
    | none => exact left
    | some view =>
      refine inv_finishCheckin left view collected preview comment send ?_
      intro held
      exact inv.owned held collected (mem_outstanding.mpr (.inr ⟨_, List.mem_of_getElem? queued, rfl⟩))

/-! ## Runs -/

theorem inv_step (s : Panel View) (label : Panel.Label View) (next : Panel View) (inv : Inv place s)
    (keeps : Keeps place s label) (taken : Panel.Step place s label next) : Inv place next := by
  subst taken
  cases label with
  | importItem item => exact (Quiet.enqueue s rfl).inv inv
  | notifyViewChanged view => exact (quiet_notifyViewChanged s view).inv inv
  | doCheckin release => exact inv_doCheckin inv keeps release
  | terminateCheckout => exact (Quiet.enqueue s rfl).inv inv
  | closeReview i comment => exact (quiet_closeReview s i comment).inv inv
  | work i opened send =>
    rw [Panel.apply]
    split
    · exact inv
    · rename_i worker queued
      exact inv_work inv queued opened send (keeps worker queued)
  | callback i release =>
    rw [Panel.apply]
    split
    · exact inv
    · rename_i callback queued
      have left : Inv place { s with callbacks := s.callbacks.eraseIdx i } := ⟨inv.owned, inv.right⟩
      exact inv_runCallback left release callback (keeps callback queued)
  | edit view content => exact ⟨inv.owned, inv.right⟩
  | connectToServer host port user password bridge send =>
    exact (Quiet.conn s _ (s.conn.connectToServer_cases host port user password bridge send).1).inv inv
  | disconnectFromServer => exact (Quiet.conn s s.conn.disconnectFromServer rfl).inv inv
  | bridgeLost => exact (Quiet.conn s { s.conn with bridgeConnected := false } rfl).inv inv

/-- A panel that has collected and sent nothing so far. Its connection, views and
metadata may be any. -/
structure Fresh (s : Panel View) : Prop where
  workers : s.workers = []
  reviews : s.reviews = []
  sent : s.sent = []

/-- Along every run in which changes are collected only from a view that owns the
target, and in which the target is not replaced under a preview whose view does
not own the new one, each check-in request names an item that the view its
changes were collected from was last imported from or is linked to. -/
theorem checkins_reach_their_item {start s : Panel View} (fresh : Fresh start)
    (reached : Runs.Reaches (Panel.Step place) (Keeps place) start s) :
    ∀ request ∈ s.sent, Right request := by
  have initial : Inv place start := by
    refine ⟨?_, ?_⟩
    · intro _ view member
      rw [outstanding, fresh.workers, fresh.reviews] at member
      cases member
    · rw [fresh.sent]
      intro request member
      cases member
  exact (reached.invariant initial inv_step).right

/-! ## Two runs -/

def itemA : Item := ⟨"r", "/", "a"⟩

/-- Two open files outside of any project, the second one linked to another item
and with a comment of its own. -/
def opened : Panel Nat where
  conn := { bridgeConnected := true, serverConnected := true, user := "user", host := "server", port := 13100 }
  contents view := if view = 2 then { comments := Table.set ∅ 64 "note" } else {}
  metadata := { view := Table.set ∅ 2 { host := "server", repo := "r", folder := "/", item := "b" } }

def noProject (_ : Nat) : Option ProjectFile := none

/-- The first file is shown and item `a` imported into it. -/
def importShown : Panel Nat :=
  (((opened.apply noProject (.notifyViewChanged (some 1))).apply noProject (.importItem itemA)).apply noProject
    (.work 0 (.ok {}) ServerSession.accept)).apply noProject (.callback 0 false)

/-- `Check In…` up to the answer of the server. -/
def checkInShown (s : Panel Nat) : Panel Nat :=
  ((s.apply noProject (.doCheckin false)).apply noProject (.closeReview 0 (some "sync"))).apply noProject
    (.work 0 (.error "") ServerSession.accept)

/-- The changes of the second file are sent to the item imported into the first one. -/
theorem checkin_names_another_item :
    let switched := importShown.apply noProject (.notifyViewChanged (some 2))
    Fresh opened ∧ switched.effectivelyCheckedOut itemA = true ∧
      Runs.Reaches (Panel.Step noProject) (fun _ _ => True) opened (checkInShown switched) ∧
      (checkInShown switched).sent = [⟨itemA, 2, none, [⟨"r", "/", "b"⟩]⟩] ∧
      ¬ ∀ request ∈ (checkInShown switched).sent, Right request := by
  have sent : (checkInShown (importShown.apply noProject (.notifyViewChanged (some 2)))).sent =
      [⟨itemA, 2, none, [⟨"r", "/", "b"⟩]⟩] := by
    decide +kernel
  refine ⟨⟨rfl, rfl, rfl⟩, by decide +kernel, ?_, sent, ?_⟩
  · refine .step (.step (.step (.step (.step (.step (.step (.step .start ?_ rfl) ?_ rfl) ?_ rfl) ?_ rfl) ?_ rfl)
      ?_ rfl) ?_ rfl) ?_ rfl
    all_goals trivial
  · rw [sent]
    intro right
    rcases right _ (List.mem_singleton.mpr rfl) with imported | linked
    · cases imported
    · revert linked
      decide

/-- The first file is commented on and checked in. -/
theorem edited_checkin_reaches_its_item :
    let edited := importShown.apply noProject (.edit 1 { comments := Table.set ∅ 64 "mine" })
    (checkInShown edited).sent ≠ [] ∧ ∀ request ∈ (checkInShown edited).sent, Right request := by
  refine ⟨by decide +kernel, ?_⟩
  refine @checkins_reach_their_item Nat _ noProject opened _ ⟨rfl, rfl, rfl⟩ ?_
  refine .step (.step (.step (.step (.step (.step (.step (.step .start ?_ rfl) ?_ rfl) ?_ rfl) ?_ rfl) ?_ rfl)
    ?_ rfl) ?_ rfl) ?_ rfl
  · exact trivial
  · exact trivial
  · intro worker queued _
    obtain rfl := Option.some.inj queued
    intro held member
    cases member
  · intro callback queued collects
    subst collects
    cases queued
  · exact trivial
  · intro view shown _
    obtain rfl := Option.some.inj shown
    exact .inl rfl
  · exact trivial
  · intro worker _ ok
    cases ok

end GhidraBridge.CheckinTarget
