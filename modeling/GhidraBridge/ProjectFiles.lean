import GhidraBridge.Lib.Files
import GhidraBridge.Lib.Runs
import GhidraBridge.ProjectPanel

/-! Items of the server as files of a project (`ProjectPanel.cpp`: `addItemToProject`,
`bulkAddItemsToProject`, `populateProjectWithItems`). A worker downloads each item, writes it
to a temporary file and has the project copy that one; when it ends, a callback stores which
items the files are linked to. Workers run beside each other and beside the user, whose
imports, uploads and opened views link files that are there already. -/
namespace GhidraBridge.ProjectFiles
open Lib

structure BinaryFile where
  filename : String
  bytes : List UInt8

/-- What was downloaded: the server connected to, the item, and the file that was chosen. -/
structure Download where
  server : ServerEntry
  item : Item
  bytes : List UInt8

/-- A file a worker made, as the project copied it. What it was made of is history. -/
structure CreatedFile where
  download : Download
  bytes : List UInt8

/-- The next call of a worker for the first of its items. -/
inductive Stage where
  | downloading
  | opening (download : Download)
  | writing (download : Download) (file : Nat)
  | creating (download : Download)
  | removing (created : Option String)

structure Added where
  fileId : String
  item : Item

/-- A worker, with the server it was started on. -/
structure Job where
  project : String
  server : ServerEntry
  todo : List Item
  stage : Stage := .downloading
  added : List Added := []
  failed : Nat := 0

namespace Job

/-- On to the next item, with nothing of this one. -/
def skip (job : Job) : Job :=
  { job with todo := job.todo.tail, stage := .downloading, failed := job.failed + 1 }

/-- On to the next item, with a file of this one. -/
def push (job : Job) (fileId : String) (item : Item) : Job :=
  { job with todo := job.todo.tail, stage := .downloading, added := job.added ++ [⟨fileId, item⟩] }

end Job

/-- How a call of a worker ends. A download that fails gives no file. -/
inductive Outcome where
  | downloaded (files : List BinaryFile)
  | opened (ok : Bool)
  /-- That many bytes of the write were stored. Nothing looks at how many. -/
  | written (stored : Nat)
  | created (fileId : Option String)
  | removed

/-- The projects, the temporary directory, and the workers with the callbacks of those that
have ended. `conn` is the server connected to, and `files` are those of `GetFiles`. Which
files were linked last by the user, and not by a worker, is history. -/
structure ProjectState where
  conn : ServerEntry
  files : List ProjectFile := []
  created : Table ProjectFile CreatedFile := ∅
  server : Table String ServerEntry := ∅
  link : Table ProjectFile FileEntry := ∅
  byHand : List ProjectFile := []
  temp : Files String UInt8 := {}
  jobs : List Job := []
  callbacks : List Job := []

inductive Event where
  | connect (server : ServerEntry)
  | addItemToProject (project : String) (item : Item)
  | bulkAddItemsToProject (project : String) (items : List Item)
  | populateProjectWithItems (project : String) (items : List Item)
  | work (i : Nat) (outcome : Outcome)
  | finish (i : Nat)
  | runCallback (i : Nat)
  /-- An import of the item into the view of the file has ended. -/
  | importItem (file : ProjectFile) (item : Item)
  /-- The file was uploaded as the item. -/
  | uploadToGhidra (file : ProjectFile) (item : Item) (keep : Bool)
  /-- The view of the file is opened, and names a server and an item. -/
  | migrateStandaloneMetadata (file : ProjectFile) (server : ServerEntry) (item : Item)
  /-- `Clear Ghidra Link…` -/
  | clearLink (file : ProjectFile)
  /-- The callback of `Delete from Server…`, where that was done. -/
  | deleted (project : String) (item : Item)
  /-- A file is deleted from its project, which keeps the metadata. -/
  | removeFile (file : ProjectFile)

/-- A source file of the item's name, else the first. -/
def chosen (sameName : String → String → Bool) (name : String) (files : List BinaryFile) : Option BinaryFile :=
  (files.find? fun f => sameName f.filename name).or files.head?

/-- How the items to add are compared with those that are linked. -/
def key (item : Item) : String := item.repo ++ "\n" ++ item.folder ++ "\n" ++ item.item

def fileEntry (item : Item) : FileEntry := ⟨item.repo, item.folder, item.item, false⟩

namespace ProjectState

def linkedTo (s : ProjectState) (file : ProjectFile) : Option Item := (s.link.lookup file).map FileEntry.target

/-- The items the files of a project are linked to. -/
def linkedItems (s : ProjectState) (project : String) : List Item :=
  (s.files.filter fun file => file.project = project).filterMap s.linkedTo

def setJob (s : ProjectState) (i : Nat) (job : Job) : ProjectState := { s with jobs := s.jobs.set i job }

/-- A worker is started, if there is anything for it to do. -/
def start (s : ProjectState) (project : String) (items : List Item) : ProjectState :=
  if items = [] then s else { s with jobs := s.jobs ++ [{ project, server := s.conn, todo := items }] }

def addItemToProject (s : ProjectState) (project : String) (item : Item) : ProjectState :=
  -- A file that is there is opened instead.
  if item ∈ s.linkedItems project then s else s.start project [item]

def bulkAddItemsToProject (s : ProjectState) (project : String) (items : List Item) : ProjectState :=
  let existing := (s.linkedItems project).map key
  s.start project (items.filter fun item => key item ∉ existing)

/-- A project gives each file an id of its own. -/
def isNew (s : ProjectState) (file : ProjectFile) : Bool := file ∉ s.files ∧ file ∉ s.created ∧ file ∉ s.link

/-- One call of a worker and what follows from it. -/
def work (sameName : String → String → Bool) (s : ProjectState) (i : Nat) (job : Job) (item : Item) :
    Stage → Outcome → ProjectState
  | .downloading, .downloaded files =>
    match chosen sameName item.item files with
    | none => s.setJob i job.skip
    | some file => s.setJob i { job with stage := .opening ⟨s.conn, item, file.bytes⟩ }
  | .opening _, .opened false => s.setJob i job.skip
  | .opening download, .opened true =>
    let opened := s.temp.create item.item
    { s.setJob i { job with stage := .writing download opened.1 } with temp := opened.2 }
  | .writing download file, .written stored =>
    { s.setJob i { job with stage := .creating download } with
      temp := s.temp.write file (download.bytes.take stored) }
  -- The temporary file is removed before the outcome is looked at.
  | .creating _, .created none => s.setJob i { job with stage := .removing none }
  | .creating download, .created (some fileId) =>
    match s.temp.read item.item with
    | none => s.setJob i { job with stage := .removing none }
    | some bytes =>
      let file : ProjectFile := ⟨job.project, fileId⟩
      if s.isNew file then
        { s.setJob i { job with stage := .removing (some fileId) } with
          files := s.files ++ [file]
          created := s.created.set file ⟨download, bytes⟩ }
      else s
  | .removing none, .removed => { s.setJob i job.skip with temp := s.temp.remove item.item }
  | .removing (some fileId), .removed => { s.setJob i (job.push fileId item) with temp := s.temp.remove item.item }
  | _, _ => s

/-- The callback at the end of a worker. The server of a project that has one is kept. -/
def storeAdded (s : ProjectState) (job : Job) : ProjectState :=
  { s with
    server := if job.added = [] ∨ job.project ∈ s.server then s.server else s.server.set job.project job.server
    link := s.link.writeAll (fun a => ⟨job.project, a.fileId⟩) (fun a => fileEntry a.item) job.added
    byHand := s.byHand.filter fun file => ∀ a ∈ job.added, (⟨job.project, a.fileId⟩ : ProjectFile) ≠ file }

/-- A file that is there is linked, in a project used with the server. -/
def linkFile (s : ProjectState) (file : ProjectFile) (server : ServerEntry) (entry : FileEntry) : ProjectState :=
  { s with
    server := s.server.set file.project server
    link := s.link.set file entry
    byHand := file :: s.byHand }

/-- The server of the project, or the one given where it has none. -/
def serverOr (s : ProjectState) (project : String) (server : ServerEntry) : ServerEntry :=
  (s.server.lookup project).getD server

/-- The end of `importItem`, in a view of a project: its server is replaced. -/
def importItem (s : ProjectState) (file : ProjectFile) (item : Item) : ProjectState :=
  s.linkFile file s.conn { fileEntry item with checkedOut := true }

/-- The end of `uploadToGhidra`, for a file of a project: its server is kept. -/
def uploadToGhidra (s : ProjectState) (file : ProjectFile) (item : Item) (keep : Bool) : ProjectState :=
  s.linkFile file (s.serverOr file.project s.conn) { fileEntry item with checkedOut := keep }

/-- What the view names is stored for its file, which has no link yet. -/
def migrateStandaloneMetadata (s : ProjectState) (file : ProjectFile) (server : ServerEntry) (item : Item) :
    ProjectState :=
  if file ∈ s.link then s else s.linkFile file (s.serverOr file.project server) (fileEntry item)

/-- Of an item that was deleted only the repository and the name are compared. -/
def clearDeleted (s : ProjectState) (project : String) (item : Item) : ProjectState :=
  let cleared := s.files.filter fun file =>
    file.project = project ∧ (s.linkedTo file).any fun linked => linked.repo = item.repo && linked.item = item.item
  { s with link := cleared.foldl (fun current file => current.erase file) s.link }

def apply (sameName : String → String → Bool) (s : ProjectState) : Event → ProjectState
  | .connect server => { s with conn := server }
  | .addItemToProject project item => s.addItemToProject project item
  | .bulkAddItemsToProject project items => s.bulkAddItemsToProject project items
  | .populateProjectWithItems project items => s.start project items
  | .work i outcome =>
    match s.jobs[i]? with
    | none => s
    | some job =>
      match job.todo with
      | [] => s
      | item :: _ => s.work sameName i job item job.stage outcome
  | .finish i =>
    match s.jobs[i]? with
    | none => s
    | some job =>
      if job.todo = [] then { s with jobs := s.jobs.eraseIdx i, callbacks := s.callbacks ++ [job] } else s
  | .runCallback i =>
    match s.callbacks[i]? with
    | none => s
    | some job => { s with callbacks := s.callbacks.eraseIdx i }.storeAdded job
  | .importItem file item => s.importItem file item
  | .uploadToGhidra file item keep => s.uploadToGhidra file item keep
  | .migrateStandaloneMetadata file server item => s.migrateStandaloneMetadata file server item
  | .clearLink file => { s with link := s.link.erase file }
  | .deleted project item => s.clearDeleted project item
  | .removeFile file => { s with files := s.files.erase file }

end ProjectState

/-! ## What a step can do -/

section
variable {sameName : String → String → Bool} {s : ProjectState} {i : Nat} {job : Job} {item : Item}

/-- What a call of a worker can do, where one happens at all. -/
inductive Worked (s : ProjectState) (i : Nat) (job : Job) (item : Item) (outcome : Outcome) : ProjectState → Prop
  | idle : Worked s i job item outcome s
  | skipped (unopened : ∀ created, job.stage ≠ .removing created) : Worked s i job item outcome (s.setJob i job.skip)
  | downloaded (bytes : List UInt8) :
    Worked s i job item outcome (s.setJob i { job with stage := .opening ⟨s.conn, item, bytes⟩ })
  | opened (download : Download) (stage : job.stage = .opening download) :
    Worked s i job item outcome
      { s.setJob i { job with stage := .writing download (s.temp.create item.item).1 } with
        temp := (s.temp.create item.item).2 }
  | written (download : Download) (file stored : Nat) (stage : job.stage = .writing download file)
    (ended : outcome = .written stored) :
    Worked s i job item outcome
      { s.setJob i { job with stage := .creating download } with
        temp := s.temp.write file (download.bytes.take stored) }
  | refused : Worked s i job item outcome (s.setJob i { job with stage := .removing none })
  | created (download : Download) (fileId : String) (bytes : List UInt8) (stage : job.stage = .creating download)
    (read : s.temp.read item.item = some bytes) (isNew : s.isNew ⟨job.project, fileId⟩ = true) :
    Worked s i job item outcome
      { s.setJob i { job with stage := .removing (some fileId) } with
        files := s.files ++ [⟨job.project, fileId⟩]
        created := s.created.set ⟨job.project, fileId⟩ ⟨download, bytes⟩ }
  | removed (stage : job.stage = .removing none) :
    Worked s i job item outcome { s.setJob i job.skip with temp := s.temp.remove item.item }
  | pushed (fileId : String) (stage : job.stage = .removing (some fileId)) :
    Worked s i job item outcome { s.setJob i (job.push fileId item) with temp := s.temp.remove item.item }

theorem worked (outcome : Outcome) : Worked s i job item outcome (s.work sameName i job item job.stage outcome) := by
  cases stage : job.stage with
  | downloading =>
    cases outcome with
    | downloaded files =>
      cases file : chosen sameName item.item files with
      | none =>
        simp only [ProjectState.work, file]
        exact .skipped (by rw [stage]; rintro _ ⟨⟩)
      | some file' =>
        simp only [ProjectState.work, file]
        exact .downloaded file'.bytes
    | opened | written | created | removed => exact .idle
  | opening download =>
    cases outcome with
    | opened ok =>
      cases ok with
      | false => exact .skipped (by rw [stage]; rintro _ ⟨⟩)
      | true => exact .opened download stage
    | downloaded | written | created | removed => exact .idle
  | writing download file =>
    cases outcome with
    | written stored => exact .written download file stored stage rfl
    | downloaded | opened | created | removed => exact .idle
  | creating download =>
    cases outcome with
    | created fileId =>
      cases fileId with
      | none => exact .refused
      | some fileId =>
        cases read : s.temp.read item.item with
        | none =>
          simp only [ProjectState.work, read]
          exact .refused
        | some bytes =>
          simp only [ProjectState.work, read]
          split
          · exact .created download fileId bytes stage read ‹_›
          · exact .idle
    | downloaded | opened | written | removed => exact .idle
  | removing created =>
    cases outcome with
    | removed =>
      cases created with
      | none => exact .removed stage
      | some fileId => exact .pushed fileId stage
    | downloaded | opened | written | created =>
      cases created <;> exact .idle

end

end GhidraBridge.ProjectFiles
