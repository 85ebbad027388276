import GhidraBridge.ProjectPanel

/-! The link and the checked-out flag the project panel shows (`ProjectPanel.cpp`), beside
the metadata they are read from. An import, a check-in, a `Terminate Checkout` and an
upload run on another thread and queue a callback for the user interface; the callback
finds whichever view is shown by then. -/
namespace GhidraBridge
open Lib
variable {View : Type} [DecidableEq View]

namespace Metadata
variable (place : View → Option ProjectFile)

/-- What is stored for a view: the link of its project where that is a valid one, with its
flag, else the link of its own database, which has no flag. -/
def linkOf (m : Metadata View) : Option View → GhidraLink × Bool
  | none => ({}, false)
  | some shown =>
    match m.projectLink place shown with
    | some (link, out) => if link.valid then (link, out) else ((m.view.lookup shown).getD {}, false)
    | none => ((m.view.lookup shown).getD {}, false)

/-- The entries an upload writes for its project file; the server of a project that has one
is kept. -/
def storeUpload (m : Metadata View) (file : Option ProjectFile) (link : GhidraLink) (keep : Bool) : Metadata View :=
  match file with
  | none => m
  | some file =>
    { m with
      server :=
        if file.project ∈ m.server then m.server
        else m.server.set file.project ⟨link.host, link.port, link.user⟩
      file := m.file.set file ⟨link.repo, link.folder, link.item, keep⟩ }

end Metadata

/-- Work that is under way, first on its own thread and then as a callback in the queue of
the user interface. A release keeps the item it is about, which its callback does not
look at. -/
inductive Pending (View : Type) where
  | importing (item : Item) (into : Option View)
  | imported (link : GhidraLink)
  | checkingIn (item : Item)
  | terminating (item : Item)
  | released (item : Item)
  | uploading (file : Option ProjectFile) (item : Item) (keep : Bool)
  | uploaded (file : Option ProjectFile) (item : Item) (keep : Bool)
  deriving DecidableEq

/-- A flag that was written: the file, the item its entry names and the item that was
checked out or released. -/
structure FlagWrite where
  file : ProjectFile
  linkedTo : Item
  about : Item
  deriving DecidableEq

/-- The panel with its pending work; `flagWrites` is history and steers nothing. -/
structure LinkPanel (View : Type) where
  panel : Panel View
  pending : List (Pending View) := []
  flagWrites : List FlagWrite := []

namespace LinkPanel
variable (place : View → Option ProjectFile)

/-- The flag `persistCheckedOutState` writes: that of the view shown, if its project has an
entry for it. -/
def flagWrite (s : LinkPanel View) (about : Item) : Option FlagWrite := do
  let file ← s.panel.currentView >>= place
  let entry ← s.panel.metadata.file.lookup file
  return ⟨file, entry.target, about⟩

def persistCheckedOutState (s : LinkPanel View) (about : Item) (val : Bool) : LinkPanel View :=
  { s with
    panel := s.panel.persistCheckedOutState place val
    flagWrites := s.flagWrites ++ (s.flagWrite place about).toList }

/-- The thread of an import that succeeds writes the entries of its view. -/
def storeImport (s : LinkPanel View) (item : Item) (into : Option View) : LinkPanel View :=
  match into with
  | none => s
  | some view =>
    { s with panel := { s.panel with metadata := s.panel.metadata.storeLink place view (s.panel.conn.linkTo item) } }

/-- What a thread leaves behind when it succeeds. -/
def succeed (s : LinkPanel View) : Pending View → LinkPanel View
  | .importing item into => s.storeImport place item into
  | _ => s

/-- The callback a thread queues when it succeeds. -/
def callback? (s : LinkPanel View) : Pending View → Option (Pending View)
  | .importing item _ => some (.imported (s.panel.conn.linkTo item))
  | .checkingIn item => some (.released item)
  | .terminating item => some (.released item)
  | .uploading file item keep => some (.uploaded file item keep)
  | _ => none

/-- The callback of an upload. -/
def finishUpload (s : LinkPanel View) (file : Option ProjectFile) (item : Item) (keep : Bool) : LinkPanel View :=
  let link := s.panel.conn.linkTo item
  { s with
    panel :=
      { s.panel with
        metadata := s.panel.metadata.storeUpload file link keep, linkedGhidra := link, checkedOut := keep } }

def runCallback (s : LinkPanel View) : Pending View → LinkPanel View
  | .imported link =>
    { s with panel := { s.panel with linkedGhidra := link } }.persistCheckedOutState place link.target true
  | .released item => s.persistCheckedOutState place item false
  | .uploaded file item keep => s.finishUpload file item keep
  | _ => s

/-- What may happen next. A thread ends with its callback or fails, and a `Terminate
Checkout` queues its callback even then. Where nothing else happens before the callback
runs, the two are one event. -/
inductive Event (View : Type) where
  | notifyViewChanged (view : Option View)
  | importItem (item : Item)
  | checkin (item : Item)
  | terminateCheckout (item : Item)
  | uploadToGhidra (file : Option ProjectFile) (item : Item) (keep : Bool)
  | finish (i : Nat)
  | fail (i : Nat)
  | runCallback (i : Nat)
  | complete (i : Nat)
  | connect (host : String) (port : Int32) (user : String)

def start (s : LinkPanel View) (work : Pending View) : LinkPanel View := { s with pending := s.pending ++ [work] }

def apply (s : LinkPanel View) : Event View → LinkPanel View
  | .notifyViewChanged view => { s with panel := s.panel.notifyViewChanged place view }
  | .importItem item => s.start (.importing item s.panel.currentView)
  | .checkin item => s.start (.checkingIn item)
  | .terminateCheckout item => s.start (.terminating item)
  | .uploadToGhidra file item keep => s.start (.uploading file item keep)
  | .finish i =>
    match s.pending[i]? with
    | none => s
    | some work =>
      match s.callback? work with
      | none => s
      | some callback => { s.succeed place work with pending := s.pending.eraseIdx i ++ [callback] }
  | .fail i =>
    match s.pending[i]? with
    | none => s
    | some work =>
      match work, s.callback? work with
      | _, none => s
      | .terminating item, _ => { s with pending := s.pending.eraseIdx i ++ [.released item] }
      | _, some _ => { s with pending := s.pending.eraseIdx i }
  | .runCallback i =>
    match s.pending[i]? with
    | none => s
    | some work =>
      if s.callback? work = none then { s with pending := s.pending.eraseIdx i }.runCallback place work else s
  | .complete i =>
    match s.pending[i]? with
    | none => s
    | some work =>
      match s.callback? work with
      | none => s
      | some callback => { s.succeed place work with pending := s.pending.eraseIdx i }.runCallback place callback
  | .connect host port user => { s with panel := { s.panel with conn := { s.panel.conn with host, port, user } } }

def Step (s : LinkPanel View) (event : Event View) (next : LinkPanel View) : Prop := next = s.apply place event

end LinkPanel
end GhidraBridge
