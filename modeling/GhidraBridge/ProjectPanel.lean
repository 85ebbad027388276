import GhidraBridge.ServerSession

/-! The project panel (`ProjectPanel.cpp`) around a check-in: which view is shown,
what it is linked to, and the work the panel hands to other threads. A worker,
a callback it queues for the user interface and an open review dialog are each
finished by a step of their own, at any later moment and in any order. -/
namespace GhidraBridge
open Lib

/-- An item of the server, as its three coordinates. -/
structure Item where
  repo : String
  folder : String
  item : String
  deriving DecidableEq

/-- `GhidraLink`, in the panel and under `"ghidra.link"` in a `.bndb`. -/
structure GhidraLink where
  host : String := ""
  user : String := ""
  repo : String := ""
  folder : String := ""
  item : String := ""
  port : Int32 := 0
  deriving DecidableEq

namespace GhidraLink

def valid (link : GhidraLink) : Bool := link.host ≠ "" && link.item ≠ ""

def target (link : GhidraLink) : Item := ⟨link.repo, link.folder, link.item⟩

end GhidraLink

/-- `"ghidra.server"` in a project, shared by its files. -/
structure ServerEntry where
  host : String
  port : Int32
  user : String

/-- `"ghidra.link.<fileId>"` in a project. -/
structure FileEntry where
  repo : String
  folder : String
  item : String
  checkedOut : Bool := false

def FileEntry.target (entry : FileEntry) : Item := ⟨entry.repo, entry.folder, entry.item⟩

structure ProjectFile where
  project : String
  fileId : String
  deriving DecidableEq

namespace GhidraConnection

/-- The item whose baselines are held, to which the next check-in goes. -/
def target (conn : GhidraConnection) : Item :=
  ⟨conn.checkinState.checkinRepo, conn.checkinState.checkinFolder, conn.checkinState.checkinItem⟩

/-- The link an import writes: the server connected to, and the item. -/
def linkTo (conn : GhidraConnection) (item : Item) : GhidraLink where
  host := conn.host
  user := conn.user
  repo := item.repo
  folder := item.folder
  item := item.item
  port := conn.port

theorem checkin_target (conn : GhidraConnection) (view : BinaryView) (preview : GhidraCheckinPreview)
    (comment : String) (send : Json → Except String Json) :
    (conn.checkin view preview comment send).2.target = conn.target := by
  rcases CheckinAtomicity.checkin_cases conn view preview comment send with ⟨_, kept⟩ | ⟨_, _, types, _, after⟩
  · rw [kept]
  · rw [after]
    rfl

/-- The request names the item. -/
def Names (req : Json) (item : Item) : Prop :=
  req.get? "repo" = some (.str item.repo) ∧ req.get? "folder" = some (.str item.folder) ∧
    req.get? "item" = some (.str item.item)

/-- A check-in sends nothing but requests for its target: how a server answers
any other request makes no difference. -/
theorem checkin_names_target (conn : GhidraConnection) (view : BinaryView) (preview : GhidraCheckinPreview)
    (comment : String) {send other : Json → Except String Json}
    (agree : ∀ req, Names req conn.target → send req = other req) :
    conn.checkin view preview comment send = conn.checkin view preview comment other := by
  have body : ∀ rebase,
      (checkinBody rebase preview comment send).run.run conn.checkinState =
        (checkinBody rebase preview comment other).run.run conn.checkinState := by
    intro rebase
    unfold checkinBody
    rw [Attempt.run_bind, Attempt.run_bind, Attempt.run_get]
    dsimp only
    rw [Attempt.run_bind, Attempt.run_bind, Attempt.run_reading, Attempt.run_reading, agree _ ⟨rfl, rfl, rfl⟩]
  unfold checkin
  rw [body]

end GhidraConnection

section
variable {View : Type} [DecidableEq View]

/-- The Ghidra entries of the open projects and databases. -/
structure Metadata (View : Type) where
  server : Table String ServerEntry := ∅
  file : Table ProjectFile FileEntry := ∅
  view : Table View GhidraLink := ∅

/-- Work on another thread. A check-in remembers, beside what the source captures,
the view its preview was collected from. -/
inductive Worker (View : Type) where
  | importItem (item : Item) (view : Option View)
  | restore (item : Item) (view : View)
  | terminate
  | checkin (view : Option View) (collectedFrom : View) (preview : GhidraCheckinPreview) (comment : String)

/-- What a worker queues for the user interface. -/
inductive Callback where
  | imported (link : GhidraLink)
  | collect
  | release

/-- A review dialog that is open, with the view its preview was collected from. -/
structure Review (View : Type) where
  view : View
  preview : GhidraCheckinPreview

/-- A check-in request that was sent: the item it names, the view its changes were
collected from, and what that view belonged to then. -/
structure SentCheckin (View : Type) where
  target : Item
  collectedFrom : View
  importedFrom : Option Item
  linkedTo : List Item
  deriving DecidableEq

/-- The panel, the connection it shares with its workers, and the open views.
`importedFrom` and `sent` are history and steer nothing. -/
structure Panel (View : Type) where
  conn : GhidraConnection := {}
  contents : View → BinaryView
  metadata : Metadata View := {}
  currentView : Option View := none
  linkedGhidra : GhidraLink := {}
  checkedOut : Bool := false
  workers : List (Worker View) := []
  callbacks : List Callback := []
  reviews : List (Review View) := []
  importedFrom : View → Option Item := fun _ => none
  sent : List (SentCheckin View) := []

variable (place : View → Option ProjectFile)

namespace Metadata

/-- The link of the project and whether the item is checked out, where the project
has both entries. -/
def projectLink (m : Metadata View) (view : View) : Option (GhidraLink × Bool) := do
  let file ← place view
  let server ← m.server.lookup file.project
  let entry ← m.file.lookup file
  return ({ host := server.host, port := server.port, user := server.user,
            repo := entry.repo, folder := entry.folder, item := entry.item }, entry.checkedOut)

/-- The entries `importItem` writes for its view. -/
def storeLink (m : Metadata View) (view : View) (link : GhidraLink) : Metadata View :=
  let filed :=
    match place view with
    | none => m
    | some file =>
      { m with
        server := m.server.set file.project ⟨link.host, link.port, link.user⟩
        file := m.file.set file ⟨link.repo, link.folder, link.item, true⟩ }
  { filed with view := filed.view.set view link }

/-- `migrateStandaloneMetadata`: an existing project entry is kept. -/
def migrateStandaloneMetadata (m : Metadata View) (view : View) : Metadata View :=
  match place view, m.view.lookup view with
  | some file, some link =>
    if file ∈ m.file then m
    else
      { m with
        server :=
          if file.project ∈ m.server then m.server
          else m.server.set file.project ⟨link.host, link.port, link.user⟩
        file := m.file.set file { repo := link.repo, folder := link.folder, item := link.item } }
  | _, _ => m

/-- The flag of the project entry, where there is one. -/
def setCheckedOut (m : Metadata View) (view : Option View) (val : Bool) : Metadata View :=
  match view >>= place with
  | none => m
  | some file =>
    match m.file.lookup file with
    | none => m
    | some entry => { m with file := m.file.set file { entry with checkedOut := val } }

/-- The items the view's own entries name, in its project and in its database. -/
def linkedItems (m : Metadata View) (view : View) : List Item :=
  ((place view).bind fun file => m.file.lookup file).toList.map FileEntry.target ++
    (m.view.lookup view).toList.map GhidraLink.target

end Metadata

namespace Panel

/-! ## The user interface thread -/

def enqueue (s : Panel View) (worker : Worker View) : Panel View := { s with workers := s.workers ++ [worker] }

/-- `QMetaObject::invokeMethod` with a queued connection. -/
def invokeLater (s : Panel View) (callback : Callback) : Panel View :=
  { s with callbacks := s.callbacks ++ [callback] }

def persistCheckedOutState (s : Panel View) (val : Bool) : Panel View :=
  { s with checkedOut := val, metadata := s.metadata.setCheckedOut place s.currentView val }

def importItem (s : Panel View) (item : Item) : Panel View := s.enqueue (.importItem item s.currentView)

/-- `notifyViewChanged`. A view without a link leaves `checkedOut` as the last view had it. -/
def notifyViewChanged (s : Panel View) (view : Option View) : Panel View :=
  let cleared := { s with currentView := view, linkedGhidra := {} }
  match view with
  | none => cleared
  | some shown =>
    let fromProject :=
      match s.metadata.projectLink place shown with
      | some (link, out) => { cleared with linkedGhidra := link, checkedOut := out }
      | none => cleared
    if fromProject.linkedGhidra.valid then fromProject
    else
      match s.metadata.view.lookup shown with
      | none => fromProject
      | some link =>
        { fromProject with
          linkedGhidra := link, metadata := s.metadata.migrateStandaloneMetadata place shown }

/-- Whether the menu of an item offers `Check In…` and `Terminate Checkout`. -/
def effectivelyCheckedOut (s : Panel View) (clicked : Item) : Bool :=
  s.conn.checkinState.isCheckinItem clicked.repo clicked.folder clicked.item ||
    (s.linkedGhidra.valid && s.linkedGhidra.target = clicked && s.checkedOut)

/-- `doCheckinWithState` up to its review dialog. `release` answers the question
whether to terminate a checkout that has no changes. -/
def doCheckinWithState (s : Panel View) (release : Bool) : Panel View :=
  match s.currentView with
  | none => s
  | some view =>
    let preview := s.conn.checkinState.collectCheckinChanges (s.contents view)
    if preview.empty then
      if s.conn.checkinState.hasCheckinState && release then s.enqueue .terminate else s
    else { s with reviews := s.reviews ++ [⟨view, preview⟩] }

def doCheckin (s : Panel View) (release : Bool) : Panel View :=
  match s.currentView with
  | none => s
  | some view =>
    if !s.conn.checkinState.hasCheckinState && s.linkedGhidra.valid then
      if s.conn.serverConnected then s.enqueue (.restore s.linkedGhidra.target view) else s
    else s.doCheckinWithState release

/-- `doCheckinWithState` after its review dialog: the version comment, or nothing
where either dialog was left. The view is the one shown by then. -/
def closeReview (s : Panel View) (i : Nat) (comment : Option String) : Panel View :=
  match s.reviews[i]? with
  | none => s
  | some review =>
    let closed := { s with reviews := s.reviews.eraseIdx i }
    match comment with
    | none => closed
    | some comment => closed.enqueue (.checkin s.currentView review.view review.preview comment)

def runCallback (s : Panel View) (release : Bool) : Callback → Panel View
  | .imported link => { s with linkedGhidra := link }.persistCheckedOutState place true
  | .collect => s.doCheckinWithState release
  | .release => s.persistCheckedOutState place false

/-! ## The worker threads -/

/-- `importItem`, once the database is open. Without a view nothing is applied, and
an empty check-in state is stored all the same. -/
def finishImport (s : Panel View) (item : Item) (view : Option View) (data : GhidraDbExport) : Panel View :=
  let link := s.conn.linkTo item
  let stored :=
    match view with
    | none => { s with conn := s.conn.storeCheckinState {} item.repo item.folder item.item }
    | some into =>
      let applied := SyncEngine.applyToView (s.contents into) data
      { s with
        conn := s.conn.storeCheckinState applied.2 item.repo item.folder item.item
        contents := Function.update s.contents into applied.1
        metadata := s.metadata.storeLink place into link
        importedFrom := Function.update s.importedFrom into (some item) }
  stored.invokeLater (.imported link)

/-- The state-restore path of `doCheckin`, once the database is open. -/
def finishRestore (s : Panel View) (item : Item) (view : View) (data : GhidraDbExport) : Panel View :=
  let maps := SyncEngine.buildWritebackMaps (s.contents view) data
  { s with conn := s.conn.storeCheckinState maps item.repo item.folder item.item }.invokeLater .collect

/-- `Terminate Checkout`: the check-in state is cleared whichever item it belongs to. -/
def finishTerminate (s : Panel View) : Panel View :=
  { s with conn := s.conn.clearCheckinState }.invokeLater .release

/-- What is known of a request as it is sent. -/
def sentCheckin (s : Panel View) (collectedFrom : View) : SentCheckin View where
  target := s.conn.target
  collectedFrom := collectedFrom
  importedFrom := s.importedFrom collectedFrom
  linkedTo := s.metadata.linkedItems place collectedFrom

/-- The sending half of `doCheckinWithState`. -/
def finishCheckin (s : Panel View) (view collectedFrom : View) (preview : GhidraCheckinPreview)
    (comment : String) (send : Json → Except String Json) : Panel View :=
  let attempt := s.conn.checkin (s.contents view) preview comment send
  let logged :=
    { s with
      conn := attempt.2
      sent := if s.conn.sendsCheckin then s.sent ++ [s.sentCheckin place collectedFrom] else s.sent }
  if attempt.1.success then { logged with conn := attempt.2.clearCheckinState }.invokeLater .release
  else logged

/-- A worker that has left the queue. `opened` is what `openDatabase` returns, `send`
the server's answers. A check-in without a view fails before it sends anything. -/
def runWorker (s : Panel View) (opened : Except String GhidraDbExport) (send : Json → Except String Json) :
    Worker View → Panel View
  | .importItem item view =>
    match opened with
    | .error _ => s
    | .ok data => s.finishImport place item view data
  | .restore item view =>
    match opened with
    | .error _ => s
    | .ok data => s.finishRestore item view data
  | .terminate => s.finishTerminate
  | .checkin (some view) collectedFrom preview comment =>
    s.finishCheckin place view collectedFrom preview comment send
  | .checkin none _ _ _ => s

/-! ## Steps -/

/-- What may happen next. The menu commands are offered as `effectivelyCheckedOut`
was when their menu opened, which may be any time before, so they may come in
every state. -/
inductive Label (View : Type) where
  | importItem (item : Item)
  | notifyViewChanged (view : Option View)
  | doCheckin (release : Bool)
  | terminateCheckout
  | closeReview (i : Nat) (comment : Option String)
  | work (i : Nat) (opened : Except String GhidraDbExport) (send : Json → Except String Json)
  | callback (i : Nat) (release : Bool)
  | edit (view : View) (content : BinaryView)
  | connectToServer (host : String) (port : Int32) (user password : String) (bridge : Except String Unit)
      (send : Json → Except String Json)
  | disconnectFromServer
  | bridgeLost

def apply (s : Panel View) : Label View → Panel View
  | .importItem item => s.importItem item
  | .notifyViewChanged view => s.notifyViewChanged place view
  | .doCheckin release => s.doCheckin release
  | .terminateCheckout => s.enqueue .terminate
  | .closeReview i comment => s.closeReview i comment
  | .work i opened send =>
    match s.workers[i]? with
    | none => s
    | some worker => { s with workers := s.workers.eraseIdx i }.runWorker place opened send worker
  | .callback i release =>
    match s.callbacks[i]? with
    | none => s
    | some callback => { s with callbacks := s.callbacks.eraseIdx i }.runCallback place release callback
  | .edit view content => { s with contents := Function.update s.contents view content }
  | .connectToServer host port user password bridge send =>
    { s with conn := (s.conn.connectToServer host port user password bridge send).2 }
  | .disconnectFromServer => { s with conn := s.conn.disconnectFromServer }
  | .bridgeLost => { s with conn := { s.conn with bridgeConnected := false } }

def Step (s : Panel View) (label : Label View) (next : Panel View) : Prop := next = s.apply place label

end Panel
end
end GhidraBridge
