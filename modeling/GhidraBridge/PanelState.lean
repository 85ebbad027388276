import GhidraBridge.PanelLink

/-! When the panel's link and flag are those of the view it shows. A callback writes the
two members and the metadata of the current view, so it has to find the view it is about;
a view without a project link takes over the flag of the view before it. -/
namespace GhidraBridge.PanelState
open Lib
variable {View : Type} [DecidableEq View] (place : View → Option ProjectFile)

/-- The panel shows the link and the flag that are stored for its view. -/
def Describes (s : Panel View) : Prop :=
  (s.linkedGhidra, s.checkedOut) = s.metadata.linkOf place s.currentView

instance (s : Panel View) : Decidable (Describes place s) :=
  inferInstanceAs (Decidable ((s.linkedGhidra, s.checkedOut) = s.metadata.linkOf place s.currentView))

/-- The link that migration would make of a database's own one, in a project with a server. -/
def migratedLink (own : GhidraLink) (server : ServerEntry) : GhidraLink :=
  { own with host := server.host, port := server.port, user := server.user }

/-- The view is linked through its project, or the flag is down already and its own link
means the same after migration. -/
def ViewFits (s : Panel View) : Option View → Prop
  | none => s.checkedOut = false
  | some shown =>
    match s.metadata.projectLink place shown with
    | some (link, out) => link.valid = true ∨ out = false ∧ (shown ∈ s.metadata.view ∨ link = {})
    | none =>
      s.checkedOut = false ∧
        ∀ own file server, s.metadata.view.lookup shown = some own → place shown = some file →
          file ∉ s.metadata.file → s.metadata.server.lookup file.project = some server →
          (migratedLink own server).valid = true → migratedLink own server = own

/-- A callback finds the view it is about: after an import the view is linked to the item
through its project, at a release the entry of its file names the item, after an upload
its file is the uploaded one. -/
def CallbackFits (s : LinkPanel View) : Pending View → Prop
  | .imported link =>
    link.valid = true ∧ ∃ view out, s.panel.currentView = some view ∧
      s.panel.metadata.projectLink place view = some (link, out)
  | .released item => ∀ written, s.flagWrite place item = some written → written.linkedTo = item
  | .uploaded file item _ =>
    (s.panel.conn.linkTo item).valid = true ∧ ∃ view own, s.panel.currentView = some view ∧ place view = some own ∧
      file = some own ∧ ∀ server, s.panel.metadata.server.lookup own.project = some server →
        server = ⟨s.panel.conn.host, s.panel.conn.port, s.panel.conn.user⟩
  | _ => True

/-- The link two entries of a project make. -/
def linkFrom (server : ServerEntry) (entry : FileEntry) : GhidraLink where
  host := server.host
  port := server.port
  user := server.user
  repo := entry.repo
  folder := entry.folder
  item := entry.item

/-- What is read for a view: from the server and the entry of its project, else from its own
database. -/
def readLink (server : Option ServerEntry) (entry : Option FileEntry) (own : Option GhidraLink) : GhidraLink × Bool :=
  match server.bind fun server => entry.map fun entry => (linkFrom server entry, entry.checkedOut) with
  | some (link, out) => if link.valid then (link, out) else (own.getD {}, false)
  | none => (own.getD {}, false)

/-- An import into a view changes nothing that is read for the one shown: not by the server
it stores for a project, by the entry it stores for a file or by the link it stores in the
view. -/
def Unseen (m : Metadata View) (link : GhidraLink) (into shown : View) : Prop :=
  readLink
      ((place shown).bind fun file =>
        if (place into).any fun other => other.project = file.project then some ⟨link.host, link.port, link.user⟩
        else m.server.lookup file.project)
      ((place shown).bind fun file =>
        if place into = some file then some ⟨link.repo, link.folder, link.item, true⟩ else m.file.lookup file)
      (if into = shown then some link else m.view.lookup shown) =
    m.linkOf place (some shown)

/-- The condition on a step. An import that ends without its callback is not seen in the view
shown. -/
def Keeps (s : LinkPanel View) : LinkPanel.Event View → Prop
  | .notifyViewChanged view => ViewFits place s.panel view
  | .finish i =>
    ∀ item into shown, s.pending[i]? = some (.importing item (some into)) → s.panel.currentView = some shown →
      Unseen place s.panel.metadata (s.panel.conn.linkTo item) into shown
  | .runCallback i => ∀ work, s.pending[i]? = some work → CallbackFits place s work
  | .complete i =>
    ∀ work callback, s.pending[i]? = some work → s.callback? work = some callback →
      CallbackFits place (s.succeed place work) callback
  | _ => True

structure Inv (s : LinkPanel View) : Prop where
  describes : Describes place s.panel
  right : ∀ written ∈ s.flagWrites, written.linkedTo = written.about

variable {place}

/-! ## The metadata of one view -/

omit [DecidableEq View] in
theorem projectLink_eq {m : Metadata View} {view : View} {file : ProjectFile} (placed : place view = some file) :
    m.projectLink place view =
      (m.server.lookup file.project).bind fun server => (m.file.lookup file).map fun entry =>
        (linkFrom server entry, entry.checkedOut) := by
  simp only [Metadata.projectLink, placed, Option.bind_eq_bind, Option.bind_some]
  cases m.server.lookup file.project with
  | none => rfl
  | some server => cases m.file.lookup file <;> rfl

omit [DecidableEq View] in
theorem projectLink_of_unplaced {m : Metadata View} {view : View} (unplaced : place view = none) :
    m.projectLink place view = none := by
  rw [Metadata.projectLink, unplaced]
  rfl

omit [DecidableEq View] in
theorem projectLink_setCheckedOut (m : Metadata View) (view : View) (val : Bool) :
    (m.setCheckedOut place (some view) val).projectLink place view =
      (m.projectLink place view).map fun shown => (shown.1, val) := by
  have found : (some view >>= place) = place view := rfl
  unfold Metadata.setCheckedOut
  rw [found]
  cases placed : place view with
  | none => simp [projectLink_of_unplaced placed]
  | some file =>
    dsimp only
    cases entered : m.file.lookup file with
    | none => simp [projectLink_eq placed, entered]
    | some entry =>
      rw [projectLink_eq placed, projectLink_eq placed, entered]
      simp only [Table.lookup_set, if_true, Option.map_some]
      cases m.server.lookup file.project <;> rfl

omit [DecidableEq View] in
theorem view_setCheckedOut (m : Metadata View) (view : Option View) (val : Bool) :
    (m.setCheckedOut place view val).view = m.view := by
  unfold Metadata.setCheckedOut
  split
  · rfl
  · split <;> rfl

theorem linkOf_of_projectLink {m : Metadata View} {view : View} {link : GhidraLink} {out : Bool}
    (linked : m.projectLink place view = some (link, out)) (valid : link.valid = true) :
    m.linkOf place (some view) = (link, out) := by
  rw [Metadata.linkOf, linked]
  exact if_pos valid

theorem linkOf_of_view {m : Metadata View} {view : View}
    (unlinked : ∀ link out, m.projectLink place view = some (link, out) → link.valid = false) :
    m.linkOf place (some view) = ((m.view.lookup view).getD {}, false) := by
  rw [Metadata.linkOf]
  split
  · rename_i link out linked
    rw [if_neg (by simp [unlinked link out linked])]
  · rfl

theorem linkOf_eq_readLink (m : Metadata View) (shown : View) :
    m.linkOf place (some shown) =
      readLink ((place shown).bind fun file => m.server.lookup file.project)
        ((place shown).bind fun file => m.file.lookup file) (m.view.lookup shown) := by
  rw [Metadata.linkOf, readLink]
  cases placed : place shown with
  | none =>
    rw [projectLink_of_unplaced placed]
    rfl
  | some file =>
    rw [projectLink_eq placed]
    rfl

/-- The link of a view behind the entries of an import. -/
theorem linkOf_storeLink (m : Metadata View) (link : GhidraLink) (into shown : View) :
    (m.storeLink place into link).linkOf place (some shown) =
      readLink
        ((place shown).bind fun file =>
          if (place into).any fun other => other.project = file.project then some ⟨link.host, link.port, link.user⟩
          else m.server.lookup file.project)
        ((place shown).bind fun file =>
          if place into = some file then some ⟨link.repo, link.folder, link.item, true⟩ else m.file.lookup file)
        (if into = shown then some link else m.view.lookup shown) := by
  rw [linkOf_eq_readLink]
  unfold Metadata.storeLink
  cases source : place into with
  | none => simp [Table.lookup_set, eq_comm]
  | some other => simp [Table.lookup_set, eq_comm]

/-- Lowering the flag of a view. -/
theorem linkOf_released (m : Metadata View) (view : Option View) :
    (m.setCheckedOut place view false).linkOf place view = ((m.linkOf place view).1, false) := by
  cases view with
  | none => rfl
  | some view =>
    rw [Metadata.linkOf, Metadata.linkOf, projectLink_setCheckedOut, view_setCheckedOut]
    cases m.projectLink place view with
    | none => rfl
    | some shown =>
      dsimp only [Option.map_some]
      split <;> rfl

/-! ## Showing a view -/

/-- Migration only adds entries: for the file of a view that has none, with the flag down. -/
theorem projectLink_migrate {m : Metadata View} {view : View} {own : GhidraLink}
    (held : m.view.lookup view = some own) :
    (m.migrateStandaloneMetadata place view).projectLink place view = m.projectLink place view ∨
      ∃ file, place view = some file ∧ file ∉ m.file ∧
        (m.migrateStandaloneMetadata place view).projectLink place view =
          some ((m.server.lookup file.project).elim own (migratedLink own), false) := by
  unfold Metadata.migrateStandaloneMetadata
  cases placed : place view with
  | none => exact .inl rfl
  | some file =>
    rw [held]
    dsimp only
    by_cases entered : file ∈ m.file
    · rw [if_pos entered]
      exact .inl rfl
    · rw [if_neg entered]
      refine .inr ⟨file, rfl, entered, ?_⟩
      rw [projectLink_eq placed]
      cases served : m.server.lookup file.project with
      | none =>
        have missing : file.project ∉ m.server := AList.lookup_eq_none.mp served
        rw [if_neg missing]
        simp only [Table.lookup_set, if_true]
        rfl
      | some server =>
        have present : file.project ∈ m.server := AList.lookup_isSome.mp (by simp [served])
        rw [if_pos present, served]
        simp only [Table.lookup_set, if_true]
        rfl

theorem view_migrate (m : Metadata View) (view : View) : (m.migrateStandaloneMetadata place view).view = m.view := by
  unfold Metadata.migrateStandaloneMetadata
  split
  · split <;> rfl
  · rfl

/-- A view that is linked by its own database alone keeps that link when it is migrated. -/
theorem linkOf_migrate {m : Metadata View} {view : View} {own : GhidraLink} (held : m.view.lookup view = some own)
    (unlinked : ∀ link out, m.projectLink place view = some (link, out) → link.valid = false)
    (same : ∀ file server, place view = some file → file ∉ m.file → m.server.lookup file.project = some server →
      (migratedLink own server).valid = true → migratedLink own server = own) :
    (m.migrateStandaloneMetadata place view).linkOf place (some view) = (own, false) := by
  have kept : ((m.migrateStandaloneMetadata place view).view.lookup view).getD {} = own := by
    rw [view_migrate, held]
    rfl
  rcases projectLink_migrate held with before | ⟨file, placed, missing, after⟩
  · rw [linkOf_of_view (before ▸ unlinked), kept]
  · by_cases valid : ((m.server.lookup file.project).elim own (migratedLink own)).valid = true
    · rw [linkOf_of_projectLink after valid]
      cases served : m.server.lookup file.project with
      | none => rfl
      | some server =>
        rw [served] at valid
        rw [Option.elim_some, same file server placed missing served valid]
    · rw [linkOf_of_view, kept]
      intro link out linked
      rw [after] at linked
      cases linked
      simpa using valid

theorem describes_notifyViewChanged {s : Panel View} {view : Option View} (fits : ViewFits place s view) :
    Describes place (s.notifyViewChanged place view) := by
  unfold Panel.notifyViewChanged Describes
  cases view with
  | none => exact congrArg (Prod.mk _) fits
  | some shown =>
    unfold ViewFits at fits
    dsimp only at fits ⊢
    cases linked : s.metadata.projectLink place shown with
    | some found =>
      obtain ⟨link, out⟩ := found
      rw [linked] at fits
      dsimp only at fits ⊢
      by_cases valid : link.valid = true
      · rw [if_pos valid]
        exact (linkOf_of_projectLink linked valid).symm
      · rw [if_neg valid]
        have unlinked : ∀ other flag, s.metadata.projectLink place shown = some (other, flag) →
            other.valid = false := by
          intro other flag same
          rw [linked] at same
          cases same
          simpa using valid
        obtain ⟨down, held⟩ := fits.resolve_left valid
        subst down
        cases held' : s.metadata.view.lookup shown with
        | none =>
          have empty : link = {} := held.resolve_left (by simp [← AList.lookup_isSome, held'])
          rw [linkOf_of_view unlinked, held', empty]
          rfl
        | some own =>
          refine (linkOf_migrate held' unlinked ?_).symm
          intro file server placed missing
          rw [projectLink_eq placed, AList.lookup_eq_none.mpr missing] at linked
          obtain ⟨_, _, entered⟩ := Option.bind_eq_some_iff.mp linked
          cases entered
    | none =>
      rw [linked] at fits
      obtain ⟨down, same⟩ := fits
      have unlinked : ∀ link out, s.metadata.projectLink place shown = some (link, out) → link.valid = false := by
        intro link out found
        rw [linked] at found
        cases found
      dsimp only
      rw [if_neg (by decide)]
      cases own : s.metadata.view.lookup shown with
      | none =>
        rw [linkOf_of_view unlinked, own]
        exact congrArg (Prod.mk _) down
      | some link =>
        rw [linkOf_migrate own unlinked fun file server => same link file server own]
        exact congrArg (Prod.mk _) down

/-! ## Callbacks -/

theorem describes_imported {s : LinkPanel View} {link : GhidraLink} (fits : CallbackFits place s (.imported link)) :
    Describes place (s.runCallback place (.imported link)).panel := by
  obtain ⟨valid, view, out, shown, linked⟩ := fits
  have after : (s.panel.metadata.setCheckedOut place (some view) true).projectLink place view = some (link, true) := by
    rw [projectLink_setCheckedOut, linked]
    rfl
  unfold Describes
  dsimp only [LinkPanel.runCallback, LinkPanel.persistCheckedOutState, Panel.persistCheckedOutState]
  rw [shown, linkOf_of_projectLink after valid]

theorem describes_released {s : LinkPanel View} (before : Describes place s.panel) (item : Item) :
    Describes place (s.runCallback place (.released item)).panel := by
  unfold Describes at before ⊢
  dsimp only [LinkPanel.runCallback, LinkPanel.persistCheckedOutState, Panel.persistCheckedOutState]
  rw [linkOf_released, ← before]

theorem describes_uploaded {s : LinkPanel View} {file : Option ProjectFile} {item : Item} {keep : Bool}
    (fits : CallbackFits place s (.uploaded file item keep)) :
    Describes place (s.runCallback place (.uploaded file item keep)).panel := by
  obtain ⟨valid, view, own, shown, placed, rfl, sameServer⟩ := fits
  have after : (s.panel.metadata.storeUpload (some own) (s.panel.conn.linkTo item) keep).projectLink place view =
      some (s.panel.conn.linkTo item, keep) := by
    rw [projectLink_eq placed]
    dsimp only [Metadata.storeUpload]
    cases served : s.panel.metadata.server.lookup own.project with
    | none =>
      have missing : own.project ∉ s.panel.metadata.server := AList.lookup_eq_none.mp served
      rw [if_neg missing]
      simp only [Table.lookup_set, if_true]
      rfl
    | some server =>
      have present : own.project ∈ s.panel.metadata.server := AList.lookup_isSome.mp (by simp [served])
      rw [if_pos present, served, sameServer server served]
      simp only [Table.lookup_set, if_true]
      rfl
  unfold Describes
  dsimp only [LinkPanel.runCallback, LinkPanel.finishUpload]
  rw [shown, linkOf_of_projectLink after valid]

omit [DecidableEq View] in
/-- The flag written after an import belongs to the file the import linked. -/
theorem flagWrite_imported {s : LinkPanel View} {link : GhidraLink} {written : FlagWrite}
    (fits : CallbackFits place s (.imported link)) (writes : s.flagWrite place link.target = some written) :
    written.linkedTo = written.about := by
  obtain ⟨_, view, out, shown, linked⟩ := fits
  obtain ⟨file, placed, rest⟩ := Option.bind_eq_some_iff.mp writes
  obtain ⟨entry, entered, made⟩ := Option.bind_eq_some_iff.mp rest
  cases made
  have own : place view = some file := by simpa [shown] using placed
  rw [projectLink_eq own, entered] at linked
  obtain ⟨server, _, same⟩ := Option.bind_eq_some_iff.mp linked
  cases same
  rfl

omit [DecidableEq View] in
/-- A callback that finds its view writes the flag of the right file, if any. -/
theorem right_runCallback {s : LinkPanel View} {callback : Pending View} (fits : CallbackFits place s callback)
    (before : ∀ written ∈ s.flagWrites, written.linkedTo = written.about) :
    ∀ written ∈ (s.runCallback place callback).flagWrites, written.linkedTo = written.about := by
  have persisted (item : Item) (right : ∀ written, s.flagWrite place item = some written →
      written.linkedTo = written.about) :
      ∀ written ∈ s.flagWrites ++ (s.flagWrite place item).toList, written.linkedTo = written.about := by
    intro written member
    rcases List.mem_append.mp member with earlier | here
    · exact before written earlier
    · exact right written (Option.mem_toList.mp here)
  cases callback with
  | imported link => exact persisted link.target fun written writes => flagWrite_imported fits writes
  | released item =>
    refine persisted item fun written writes => ?_
    have about : written.about = item := by
      obtain ⟨_, _, rest⟩ := Option.bind_eq_some_iff.mp writes
      obtain ⟨_, _, made⟩ := Option.bind_eq_some_iff.mp rest
      cases made
      rfl
    rw [about]
    exact fits written writes
  | uploaded file item keep => exact before
  | importing item into => exact before
  | checkingIn item => exact before
  | terminating item => exact before
  | uploading file item keep => exact before

theorem inv_runCallback {s : LinkPanel View} {callback : Pending View} (before : Inv place s)
    (fits : CallbackFits place s callback) : Inv place (s.runCallback place callback) := by
  refine ⟨?_, right_runCallback fits before.right⟩
  cases callback with
  | imported link => exact describes_imported fits
  | released item => exact describes_released before.describes item
  | uploaded file item keep => exact describes_uploaded fits
  | importing item into => exact before.describes
  | checkingIn item => exact before.describes
  | terminating item => exact before.describes
  | uploading file item keep => exact before.describes

/-! ## Threads that end -/

/-- A thread leaves the panel's own members alone. -/
theorem succeed_kept (place : View → Option ProjectFile) (s : LinkPanel View) (work : Pending View) :
    (s.succeed place work).panel.currentView = s.panel.currentView ∧
      (s.succeed place work).panel.linkedGhidra = s.panel.linkedGhidra ∧
      (s.succeed place work).panel.checkedOut = s.panel.checkedOut ∧
      (s.succeed place work).flagWrites = s.flagWrites := by
  cases work with
  | importing item into => cases into <;> exact ⟨rfl, rfl, rfl, rfl⟩
  | imported link => exact ⟨rfl, rfl, rfl, rfl⟩
  | checkingIn item => exact ⟨rfl, rfl, rfl, rfl⟩
  | terminating item => exact ⟨rfl, rfl, rfl, rfl⟩
  | released item => exact ⟨rfl, rfl, rfl, rfl⟩
  | uploading file item keep => exact ⟨rfl, rfl, rfl, rfl⟩
  | uploaded file item keep => exact ⟨rfl, rfl, rfl, rfl⟩

/-- A thread that ends unseen leaves the link of the view shown as it is. -/
theorem linkOf_succeed {s : LinkPanel View} {work : Pending View}
    (unseen : ∀ item into shown, work = .importing item (some into) → s.panel.currentView = some shown →
      Unseen place s.panel.metadata (s.panel.conn.linkTo item) into shown) :
    (s.succeed place work).panel.metadata.linkOf place s.panel.currentView =
      s.panel.metadata.linkOf place s.panel.currentView := by
  cases work with
  | importing item into =>
    cases into with
    | none => rfl
    | some into =>
      cases view : s.panel.currentView with
      | none => rfl
      | some shown => exact (linkOf_storeLink _ _ into shown).trans (unseen item into shown rfl view)
  | imported | checkingIn | terminating | released | uploading | uploaded => rfl

theorem inv_complete {s : LinkPanel View} {work callback : Pending View} (before : Inv place s)
    (queues : s.callback? work = some callback) (fits : CallbackFits place (s.succeed place work) callback)
    (pending : List (Pending View)) :
    Inv place ({ s.succeed place work with pending }.runCallback place callback) := by
  cases work with
  | importing item into =>
    cases queues
    refine ⟨describes_imported fits, right_runCallback fits ?_⟩
    rw [show ({ s.succeed place (.importing item into) with pending } : LinkPanel View).flagWrites = s.flagWrites from
      (succeed_kept place s (.importing item into)).2.2.2]
    exact before.right
  | checkingIn item =>
    cases queues
    exact inv_runCallback ⟨before.describes, before.right⟩ fits
  | terminating item =>
    cases queues
    exact inv_runCallback ⟨before.describes, before.right⟩ fits
  | uploading file item keep =>
    cases queues
    exact inv_runCallback ⟨before.describes, before.right⟩ fits
  | imported link => cases queues
  | released item => cases queues
  | uploaded file item keep => cases queues

/-! ## Runs -/

theorem inv_step (s : LinkPanel View) (event : LinkPanel.Event View) (next : LinkPanel View) (before : Inv place s)
    (keeps : Keeps place s event) (taken : LinkPanel.Step place s event next) : Inv place next := by
  subst taken
  cases event with
  | notifyViewChanged view => exact ⟨describes_notifyViewChanged keeps, before.right⟩
  | importItem item => exact ⟨before.describes, before.right⟩
  | checkin item => exact ⟨before.describes, before.right⟩
  | terminateCheckout item => exact ⟨before.describes, before.right⟩
  | uploadToGhidra file item keep => exact ⟨before.describes, before.right⟩
  | finish i =>
    rw [LinkPanel.apply]
    split
    · exact before
    · rename_i work queued
      split
      · exact before
      · obtain ⟨sameView, sameLink, sameFlag, sameWrites⟩ := succeed_kept place s work
        have kept : (s.succeed place work).panel.metadata.linkOf place s.panel.currentView =
            s.panel.metadata.linkOf place s.panel.currentView := linkOf_succeed fun item into shown importing => by
          exact keeps item into shown (queued.trans (congrArg some importing))
        refine ⟨?_, ?_⟩
        · unfold Describes
          dsimp only
          rw [sameView, sameLink, sameFlag, kept]
          exact before.describes
        · dsimp only
          rw [sameWrites]
          exact before.right
  | fail i =>
    rw [LinkPanel.apply]
    split
    · exact before
    · split
      · exact before
      · exact ⟨before.describes, before.right⟩
      · exact ⟨before.describes, before.right⟩
  | runCallback i =>
    rw [LinkPanel.apply]
    split
    · exact before
    · rename_i work queued
      split
      · exact inv_runCallback ⟨before.describes, before.right⟩ (keeps work queued)
      · exact before
  | complete i =>
    rw [LinkPanel.apply]
    split
    · exact before
    · rename_i work queued
      split
      · exact before
      · rename_i callback queues
        exact inv_complete before queues (keeps work callback queued queues) _
  | connect host port user => exact ⟨before.describes, before.right⟩

/-- Along every run in which a view is shown only while the flag cannot be a stale one,
imports end with their callback or out of sight, and callbacks find the view they are
about, the panel shows the link and the flag of its view, and no flag of another file
is ever written. -/
theorem panel_describes_its_view {start s : LinkPanel View} (initial : Describes place start.panel)
    (clean : start.flagWrites = [])
    (reached : Runs.Reaches (LinkPanel.Step place) (Keeps place) start s) :
    Describes place s.panel ∧ ∀ written ∈ s.flagWrites, written.linkedTo = written.about := by
  have begun : Inv place start := by
    refine ⟨initial, ?_⟩
    rw [clean]
    intro written member
    cases member
  have held := reached.invariant begun inv_step
  exact ⟨held.describes, held.right⟩

/-! ## Two runs -/

def itemA : Item := ⟨"r", "/", "a"⟩

def fileOf (view : Nat) : ProjectFile := ⟨"p", toString view⟩

/-- Three files of one project, the second one linked to another item. -/
def opened : LinkPanel Nat where
  panel :=
    { conn := { host := "server", user := "user", port := 13100 }
      contents := fun _ => {}
      metadata :=
        { server := Table.set ∅ "p" ⟨"server", 13100, "user"⟩
          file := Table.set ∅ (fileOf 2) { repo := "r", folder := "/", item := "b" } } }

def inProject (view : Nat) : Option ProjectFile := some (fileOf view)

def act (s : LinkPanel Nat) (event : LinkPanel.Event Nat) : LinkPanel Nat := s.apply inProject event

/-- Item `a` is checked out into the first file and checked in again. -/
def checkedInAgain : LinkPanel Nat :=
  act (act (act (act (act opened (.notifyViewChanged (some 1))) (.importItem itemA)) (.complete 0)) (.checkin itemA))
    (.complete 0)

theorem checkedInAgain_described :
    checkedInAgain.flagWrites.length = 2 ∧ Describes inProject checkedInAgain.panel ∧
      ∀ written ∈ checkedInAgain.flagWrites, written.linkedTo = written.about := by
  refine ⟨by decide +kernel, ?_⟩
  refine @panel_describes_its_view Nat _ inProject opened checkedInAgain (by decide +kernel) rfl ?_
  unfold checkedInAgain act
  refine .step (.step (.step (.step (.step .start ?_ rfl) ?_ rfl) ?_ rfl) ?_ rfl) ?_ rfl
  · refine ⟨rfl, ?_⟩
    intro own file server held
    cases held
  · trivial
  · intro work callback queued queues
    cases queued
    cases queues
    exact ⟨by decide +kernel, 1, true, rfl, by decide +kernel⟩
  · trivial
  · intro work callback queued queues
    cases queued
    cases queues
    intro written writes
    cases writes
    rfl

/-- The second file is shown before the import into the first one ends. -/
def importedTooLate : LinkPanel Nat :=
  act (act (act (act (act opened (.notifyViewChanged (some 1))) (.importItem itemA)) (.notifyViewChanged (some 2)))
    (.finish 0)) (.runCallback 0)

/-- The callback of the import finds the second file: the panel shows the link of the first
one, and the flag of the second one is raised. A file without a link that is shown next
takes the flag over. -/
theorem callback_finds_another_view :
    Describes inProject opened.panel ∧ opened.flagWrites = [] ∧
      Runs.Reaches (LinkPanel.Step inProject) (fun _ _ => True) opened importedTooLate ∧
      ¬Describes inProject importedTooLate.panel ∧
      importedTooLate.flagWrites = [⟨fileOf 2, ⟨"r", "/", "b"⟩, itemA⟩] ∧
      Runs.Reaches (LinkPanel.Step inProject) (fun _ _ => True) opened
        (act importedTooLate (.notifyViewChanged (some 3))) ∧
      (act importedTooLate (.notifyViewChanged (some 3))).panel.linkedGhidra = {} ∧
      (act importedTooLate (.notifyViewChanged (some 3))).panel.checkedOut = true := by
  have reached : Runs.Reaches (LinkPanel.Step inProject) (fun _ _ => True) opened importedTooLate := by
    unfold importedTooLate act
    exact .step (.step (.step (.step (.step .start trivial rfl) trivial rfl) trivial rfl) trivial rfl) trivial rfl
  refine ⟨by decide +kernel, rfl, reached, by decide +kernel, by decide +kernel, .step reached trivial rfl,
    by decide +kernel, by decide +kernel⟩

end GhidraBridge.PanelState
