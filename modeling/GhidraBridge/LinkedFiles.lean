import Mathlib.Data.List.Perm.Basic
import GhidraBridge.ProjectFiles

/-! Which bytes and which server a linked file stands for, while workers share a temporary
directory by the names of their items and one connection. -/
namespace GhidraBridge.ProjectFiles
open Lib Lib.Runs

variable {sameName : String → String → Bool} {home : String → ServerEntry} {s next : ProjectState}

/-- A list as one of its places and the others. -/
theorem perm_eraseIdx {A : Type u} {xs : List A} {i : Nat} {x : A} (here : xs[i]? = some x) :
    xs.Perm (x :: xs.eraseIdx i) := by
  obtain ⟨inRange, rfl⟩ := List.getElem?_eq_some_iff.mp here
  exact (List.getElem_cons_eraseIdx_perm inRange).symm

theorem set_perm {A : Type u} {xs : List A} {i : Nat} {x : A} (here : xs[i]? = some x) (y : A) :
    (xs.set i y).Perm (y :: xs.eraseIdx i) :=
  List.set_perm_cons_eraseIdx (List.getElem?_eq_some_iff.mp here).1 y

/-- The file was made of a download of the item. -/
def Made (s : ProjectState) (file : ProjectFile) (item : Item) : Prop :=
  ∃ created, s.created.lookup file = some created ∧ created.download.item = item

/-- The download is of the item the worker is at, from the server of its project. -/
def Current (home : String → ServerEntry) (job : Job) (download : Download) : Prop :=
  job.todo.head? = some download.item ∧ download.server = home job.project

/-- The temporary file a worker goes on with is what it left there. -/
def StageSound (home : String → ServerEntry) (s : ProjectState) (job : Job) : Stage → Prop
  | .downloading => True
  | .opening download => Current home job download
  | .writing download file => Current home job download ∧ s.temp.Holds download.item.item file []
  | .creating download =>
    Current home job download ∧ ∃ file, s.temp.Holds download.item.item file download.bytes
  | .removing none => True
  | .removing (some fileId) => ∃ item, job.todo.head? = some item ∧ Made s ⟨job.project, fileId⟩ item

/-- What a worker has added so far. -/
structure Ended (home : String → ServerEntry) (s : ProjectState) (job : Job) : Prop where
  server : job.server = home job.project
  added : ∀ a ∈ job.added, Made s ⟨job.project, a.fileId⟩ a.item

structure Sound (home : String → ServerEntry) (s : ProjectState) (job : Job) : Prop extends Ended home s job where
  connected : job.todo ≠ [] → s.conn = home job.project
  stage : StageSound home s job job.stage

/-- No item of one worker has the name of an item of the other. -/
def NamesApart (job other : Job) : Prop := ∀ a ∈ job.todo, ∀ b ∈ other.todo, a.item ≠ b.item

/-- The project copied what was downloaded, from its own server. -/
def Right (home : String → ServerEntry) (file : ProjectFile) (created : CreatedFile) : Prop :=
  created.bytes = created.download.bytes ∧ created.download.server = home file.project

/-- `old` are the links there were before. -/
structure Inv (home : String → ServerEntry) (old : Table ProjectFile FileEntry) (s : ProjectState) : Prop where
  temp : s.temp.Wf
  apart : s.jobs.Pairwise NamesApart
  jobs : ∀ job ∈ s.jobs, Sound home s job
  callbacks : ∀ job ∈ s.callbacks, Ended home s job
  server : ∀ {project entry}, s.server.lookup project = some entry → entry = home project
  created : ∀ {file created}, s.created.lookup file = some created → Right home file created
  linked : ∀ {file entry}, s.link.lookup file = some entry →
    old.lookup file = some entry ∨ file ∈ s.byHand ∨ (Made s file entry.target ∧ file.project ∈ s.server)

/-- A write stores everything. -/
def Whole : Stage → Outcome → Prop
  | .writing download _, .written stored => download.bytes.length ≤ stored
  | _, _ => True

/-- What may be done: a project is used with its own server, which is not left while a
worker has items to add to it, no worker is given an item whose name another one has, and
no write falls short. -/
def Allowed (home : String → ServerEntry) (s : ProjectState) : Event → Prop
  | .connect server => ∀ job ∈ s.jobs, job.todo ≠ [] → server = home job.project
  | .addItemToProject project item => s.conn = home project ∧ ∀ job ∈ s.jobs, ∀ b ∈ job.todo, item.item ≠ b.item
  | .bulkAddItemsToProject project items | .populateProjectWithItems project items =>
    s.conn = home project ∧ ∀ job ∈ s.jobs, ∀ a ∈ items, ∀ b ∈ job.todo, a.item ≠ b.item
  | .work i outcome => ∀ job ∈ s.jobs[i]?, Whole job.stage outcome
  | .importItem file _ | .uploadToGhidra file _ _ => s.conn = home file.project
  | .migrateStandaloneMetadata file server _ => server = home file.project
  | _ => True

def Step (sameName : String → String → Bool) (s : ProjectState) (event : Event) (next : ProjectState) : Prop :=
  next = s.apply sameName event

/-- Nobody adds anything, and no file was made or linked yet. -/
structure AtRest (home : String → ServerEntry) (s : ProjectState) : Prop where
  jobs : s.jobs = []
  byHand : s.byHand = []
  callbacks : s.callbacks = []
  temp : s.temp.Wf
  server : ∀ {project entry}, s.server.lookup project = some entry → entry = home project
  created : s.created = ∅

theorem NamesApart.symm {job other : Job} (apart : NamesApart job other) : NamesApart other job :=
  fun a here b there => (apart b there a here).symm

section
variable {job : Job} (made : ∀ file item, Made s file item → Made next file item)
include made

theorem Ended.kept (ended : Ended home s job) : Ended home next job :=
  ⟨ended.server, fun a here => made _ _ (ended.added a here)⟩

/-- A worker does not see what leaves its files, its server and its names in the temporary
directory as they are. -/
theorem Sound.kept (sound : Sound home s job) (connected : job.todo ≠ [] → next.conn = home job.project)
    (temp : ∀ item ∈ job.todo, ∀ file bytes, s.temp.Holds item.item file bytes → next.temp.Holds item.item file bytes) :
    Sound home next job := by
  refine ⟨sound.toEnded.kept made, connected, ?_⟩
  have stage := sound.stage
  cases at' : job.stage with
  | downloading => trivial
  | opening download =>
    rw [at'] at stage
    exact stage
  | writing download file =>
    rw [at'] at stage
    exact ⟨stage.1, temp _ (List.mem_of_head? stage.1.1) _ _ stage.2⟩
  | creating download =>
    rw [at'] at stage
    obtain ⟨current, file, holds⟩ := stage
    exact ⟨current, file, temp _ (List.mem_of_head? current.1) _ _ holds⟩
  | removing created =>
    rw [at'] at stage
    cases created with
    | none => trivial
    | some fileId =>
      obtain ⟨item, first, of⟩ := stage
      exact ⟨item, first, made _ _ of⟩

end

/-! ## One call of a worker -/

section
variable {old : Table ProjectFile FileEntry} {i : Nat} {job after : Job}

/-- One worker moves on, and the others do not see it. -/
theorem Inv.move (inv : Inv home old s) (here : s.jobs[i]? = some job)
    (jobs : next.jobs = s.jobs.set i after) (callbacks : next.callbacks = s.callbacks) (server : next.server = s.server)
    (link : next.link = s.link) (byHand : next.byHand = s.byHand) (conn : next.conn = s.conn) (wf : next.temp.Wf)
    (made : ∀ file item, Made s file item → Made next file item)
    (created : ∀ {file created}, next.created.lookup file = some created → Right home file created)
    (todo : after.todo ⊆ job.todo)
    (temp : ∀ other, NamesApart job other → ∀ item ∈ other.todo, ∀ file bytes,
      s.temp.Holds item.item file bytes → next.temp.Holds item.item file bytes)
    (sound : Sound home next after) : Inv home old next := by
  have before := perm_eraseIdx here
  have then' : next.jobs.Perm (after :: s.jobs.eraseIdx i) := jobs ▸ set_perm here after
  have apart := (before.pairwise_iff NamesApart.symm).mp inv.apart
  rw [List.pairwise_cons] at apart
  refine ⟨wf, ?_, fun other there => ?_, ?_, ?_, created, ?_⟩
  · rw [then'.pairwise_iff NamesApart.symm, List.pairwise_cons]
    exact ⟨fun other there a first => apart.1 other there a (todo first), apart.2⟩
  · obtain rfl | there := List.mem_cons.mp (then'.mem_iff.mp there)
    · exact sound
    · have otherSound := inv.jobs other (before.mem_iff.mpr (List.mem_cons_of_mem _ there))
      exact otherSound.kept made (fun busy => conn ▸ otherSound.connected busy) (temp other (apart.1 other there))
  · rw [callbacks]
    exact fun other there => (inv.callbacks other there).kept made
  · rw [server]
    exact inv.server
  · rw [link, byHand, server]
    intro file entry held
    exact (inv.linked held).imp_right (Or.imp_right (And.imp_left (made _ _)))

/-- The first item of a worker is not in the list of another. -/
theorem NamesApart.head {job other : Job} {item : Item} (apart : NamesApart job other)
    (first : job.todo.head? = some item) {b : Item} (there : b ∈ other.todo) : b.item ≠ item.item :=
  (apart item (List.mem_of_head? first) b there).symm

theorem inv_worked {item : Item} {outcome : Outcome} (inv : Inv home old s) (here : s.jobs[i]? = some job)
    (first : job.todo.head? = some item) (whole : Whole job.stage outcome)
    (worked : Worked s i job item outcome next) : Inv home old next := by
  have sound := inv.jobs job (List.mem_of_getElem? here)
  have busy : job.todo ≠ [] := by
    rintro none
    rw [none] at first
    cases first
  have connected := sound.connected busy
  have ofFirst {download : Download} (current : Current home job download) : download.item = item :=
    Option.some.inj (current.1.symm.trans first)
  have stage := sound.stage
  cases worked with
  | idle => exact inv
  | skipped =>
    exact inv.move here rfl rfl rfl rfl rfl rfl inv.temp (fun _ _ made => made) inv.created (List.tail_sublist _).subset
      (fun _ _ _ _ _ _ holds => holds) ⟨⟨sound.server, sound.added⟩, fun _ => connected, trivial⟩
  | downloaded bytes =>
    exact inv.move here rfl rfl rfl rfl rfl rfl inv.temp (fun _ _ made => made) inv.created (List.Subset.refl _)
      (fun _ _ _ _ _ _ holds => holds) ⟨⟨sound.server, sound.added⟩, fun _ => connected, first, connected⟩
  | opened download at' =>
    rw [at'] at stage
    obtain rfl := ofFirst stage
    exact inv.move here rfl rfl rfl rfl rfl rfl (Files.wf_create inv.temp _) (fun _ _ made => made) inv.created
      (List.Subset.refl _) (fun _ apart _ there _ _ holds => holds.create inv.temp (apart.head first there))
      ⟨⟨sound.server, sound.added⟩, fun _ => connected, stage, Files.holds_create _ _⟩
  | written download file stored at' ended =>
    rw [at'] at stage
    rw [at', ended] at whole
    obtain ⟨current, holds⟩ := stage
    obtain rfl := ofFirst current
    rw [List.take_of_length_le whole]
    exact inv.move here rfl rfl rfl rfl rfl rfl (Files.wf_write inv.temp _ _) (fun _ _ made => made) inv.created
      (List.Subset.refl _) (fun _ apart _ there _ _ other =>
        other.write_other inv.temp holds (apart.head first there) _)
      ⟨⟨sound.server, sound.added⟩, fun _ => connected, current, file, holds.write _⟩
  | refused =>
    exact inv.move here rfl rfl rfl rfl rfl rfl inv.temp (fun _ _ made => made) inv.created (List.Subset.refl _)
      (fun _ _ _ _ _ _ holds => holds) ⟨⟨sound.server, sound.added⟩, fun _ => connected, trivial⟩
  | created download fileId bytes at' read isNew =>
    rw [at'] at stage
    obtain ⟨current, file, holds⟩ := stage
    obtain rfl := ofFirst current
    have same : bytes = download.bytes := Option.some.inj (read.symm.trans holds.read)
    have made (file : ProjectFile) (item : Item) (of : Made s file item) :
        ∃ created, (s.created.set ⟨job.project, fileId⟩ ⟨download, bytes⟩).lookup file = some created ∧
          created.download.item = item := by
      obtain ⟨created, held, rfl⟩ := of
      have other : file ≠ ⟨job.project, fileId⟩ := by
        rintro rfl
        rw [ProjectState.isNew, decide_eq_true_eq, ← AList.lookup_eq_none (s := s.created), held] at isNew
        cases isNew.2.1
      exact ⟨created, by rw [Table.lookup_set, if_neg other, held], rfl⟩
    refine inv.move here rfl rfl rfl rfl rfl rfl inv.temp made (fun {file created} held => ?_) (List.Subset.refl _)
      (fun _ _ _ _ _ _ holds => holds)
      ⟨⟨sound.server, fun a there => made _ _ (sound.added a there)⟩, fun _ => connected, download.item, first,
        ⟨download, bytes⟩, by rw [Table.lookup_set, if_pos rfl], rfl⟩
    rw [Table.lookup_set] at held
    split at held
    · rename_i new
      cases held
      exact ⟨same, by rw [new]; exact current.2⟩
    · exact inv.created held
  | removed at' =>
    exact inv.move here rfl rfl rfl rfl rfl rfl (Files.wf_remove inv.temp _) (fun _ _ made => made) inv.created
      (List.tail_sublist _).subset (fun _ apart _ there _ _ holds => holds.remove (apart.head first there))
      ⟨⟨sound.server, sound.added⟩, fun _ => connected, trivial⟩
  | pushed fileId at' =>
    rw [at'] at stage
    obtain ⟨of, first', made⟩ := stage
    obtain rfl : of = item := Option.some.inj (first'.symm.trans first)
    refine inv.move here rfl rfl rfl rfl rfl rfl (Files.wf_remove inv.temp _) (fun _ _ made => made) inv.created
      (List.tail_sublist _).subset (fun _ apart _ there _ _ holds => holds.remove (apart.head first there))
      ⟨⟨sound.server, fun a there => ?_⟩, fun _ => connected, trivial⟩
    obtain there | there := List.mem_append.mp there
    · exact sound.added a there
    · obtain rfl := List.mem_singleton.mp there
      exact made

end

/-! ## The other events -/

section
variable {old : Table ProjectFile FileEntry} {project : String} {items : List Item}

theorem Ended.same {job : Job} (ended : Ended home s job) (created : next.created = s.created) :
    Ended home next job := by
  refine ended.kept fun file item made => ?_
  rw [Made, created]
  exact made

/-- What a worker relies on is the files made so far, the temporary directory and the server
connected to. -/
theorem Sound.same {job : Job} (sound : Sound home s job) (created : next.created = s.created)
    (temp : next.temp = s.temp) (connected : job.todo ≠ [] → next.conn = home job.project) : Sound home next job := by
  refine sound.kept (fun file item made => ?_) connected fun _ _ _ _ holds => ?_
  · rw [Made, created]
    exact made
  · rw [temp]
    exact holds

theorem inv_start (inv : Inv home old s) (connected : s.conn = home project)
    (apart : ∀ job ∈ s.jobs, ∀ a ∈ items, ∀ b ∈ job.todo, a.item ≠ b.item) : Inv home old (s.start project items) := by
  unfold ProjectState.start
  split
  · exact inv
  · refine ⟨inv.temp, ?_, fun job there => ?_, fun job there => (inv.callbacks job there).same rfl, inv.server,
      inv.created, inv.linked⟩
    · refine List.pairwise_append.mpr ⟨inv.apart, List.pairwise_singleton _ _, fun job there other new => ?_⟩
      obtain rfl := List.mem_singleton.mp new
      exact NamesApart.symm fun a here b other => apart job there a here b other
    · obtain there | new := List.mem_append.mp there
      · exact (inv.jobs job there).same rfl rfl (inv.jobs job there).connected
      · obtain rfl := List.mem_singleton.mp new
        exact ⟨⟨connected, by rintro a ⟨⟩⟩, fun _ => connected, trivial⟩

theorem inv_finish {i : Nat} {job : Job} (inv : Inv home old s) (here : s.jobs[i]? = some job) :
    Inv home old { s with jobs := s.jobs.eraseIdx i, callbacks := s.callbacks ++ [job] } where
  temp := inv.temp
  apart := inv.apart.sublist (List.eraseIdx_sublist _ _)
  jobs other there :=
    have sound := inv.jobs other ((List.eraseIdx_sublist _ _).mem there)
    sound.same rfl rfl sound.connected
  callbacks other there := by
    obtain there | new := List.mem_append.mp there
    · exact (inv.callbacks other there).same rfl
    · obtain rfl := List.mem_singleton.mp new
      exact (inv.jobs other (List.mem_of_getElem? here)).toEnded.same rfl
  server := inv.server
  created := inv.created
  linked := inv.linked

theorem inv_runCallback {i : Nat} {job : Job} (inv : Inv home old s) (here : s.callbacks[i]? = some job) :
    Inv home old ({ s with callbacks := s.callbacks.eraseIdx i }.storeAdded job) := by
  have ended := inv.callbacks job (List.mem_of_getElem? here)
  refine ⟨inv.temp, inv.apart, fun other there => ?_, fun other there => ?_, fun {of entry} held => ?_, inv.created,
    fun {file entry} held => ?_⟩
  · exact (inv.jobs other there).same rfl rfl (inv.jobs other there).connected
  · exact (inv.callbacks other ((List.eraseIdx_sublist _ _).mem there)).same rfl
  · simp only [ProjectState.storeAdded] at held
    split at held
    · exact inv.server held
    · rw [Table.lookup_set] at held
      split at held
      · rename_i same
        cases held
        rw [same, ended.server]
      · exact inv.server held
  · have grown {of : String} (there : of ∈ s.server) :
        of ∈ ({ s with callbacks := s.callbacks.eraseIdx i }.storeAdded job).server := by
      simp only [ProjectState.storeAdded]
      split
      · exact there
      · exact Table.mem_set.mpr (.inr there)
    simp only [ProjectState.storeAdded] at held
    rw [Table.lookup_writeAll] at held
    cases added : job.added.reverse.find? fun a => decide ((⟨job.project, a.fileId⟩ : ProjectFile) = file) with
    | none =>
      rw [added] at held
      refine (inv.linked held).imp_right (Or.imp (fun there => ?_) (And.imp_right grown))
      have other : ∀ a ∈ job.added, (⟨job.project, a.fileId⟩ : ProjectFile) ≠ file := by
        simpa using List.find?_eq_none.mp added
      exact List.mem_filter.mpr ⟨there, decide_eq_true other⟩
    | some a =>
      rw [added] at held
      cases held
      have there : a ∈ job.added := List.mem_reverse.mp (List.mem_of_find?_eq_some added)
      obtain rfl : (⟨job.project, a.fileId⟩ : ProjectFile) = file := by simpa using List.find?_some added
      refine .inr (.inr ⟨ended.added a there, ?_⟩)
      simp only [ProjectState.storeAdded]
      split
      · rename_i kept
        exact kept.resolve_left (List.ne_nil_of_mem there)
      · exact Table.mem_set.mpr (.inl rfl)

/-- A link of the user's leaves what the workers rely on as it is. -/
theorem inv_linkFile {file : ProjectFile} {server : ServerEntry} (inv : Inv home old s)
    (own : server = home file.project) (entry : FileEntry) : Inv home old (s.linkFile file server entry) where
  temp := inv.temp
  apart := inv.apart
  jobs other there := (inv.jobs other there).same rfl rfl (inv.jobs other there).connected
  callbacks other there := (inv.callbacks other there).same rfl
  server {project entry} held := by
    simp only [ProjectState.linkFile] at held
    rw [Table.lookup_set] at held
    split at held
    · rename_i same
      cases held
      rw [same, own]
    · exact inv.server held
  created := inv.created
  linked {other entry} held := by
    simp only [ProjectState.linkFile] at held ⊢
    rw [Table.lookup_set] at held
    split at held
    · rename_i same
      exact .inr (.inl (same ▸ List.mem_cons_self))
    · exact (inv.linked held).imp_right
        (Or.imp (List.mem_cons_of_mem _) (And.imp_right fun there => Table.mem_set.mpr (.inr there)))

theorem Inv.serverOr (inv : Inv home old s) {server : ServerEntry} (own : server = home project) :
    s.serverOr project server = home project := by
  unfold ProjectState.serverOr
  cases stored : s.server.lookup project with
  | none => exact own
  | some entry => exact inv.server stored

/-- Links that are taken away leave the rest as it is. -/
theorem inv_unlink {link : Table ProjectFile FileEntry} (inv : Inv home old s)
    (fewer : ∀ {file entry}, link.lookup file = some entry → s.link.lookup file = some entry) :
    Inv home old { s with link } where
  temp := inv.temp
  apart := inv.apart
  jobs other there := (inv.jobs other there).same rfl rfl (inv.jobs other there).connected
  callbacks other there := (inv.callbacks other there).same rfl
  server := inv.server
  created := inv.created
  linked held := inv.linked (fewer held)

theorem inv_apply (inv : Inv home old s) (event : Event) (allowed : Allowed home s event) :
    Inv home old (s.apply sameName event) := by
  cases event with
  | connect server =>
    exact ⟨inv.temp, inv.apart, fun job there => (inv.jobs job there).same rfl rfl (allowed job there),
      fun job there => (inv.callbacks job there).same rfl, inv.server, inv.created, inv.linked⟩
  | addItemToProject project item =>
    simp only [ProjectState.apply, ProjectState.addItemToProject]
    split
    · exact inv
    · refine inv_start inv allowed.1 fun job there a here b other => ?_
      obtain rfl := List.mem_singleton.mp here
      exact allowed.2 job there b other
  | bulkAddItemsToProject project items =>
    exact inv_start inv allowed.1 fun job there a here => allowed.2 job there a (List.mem_of_mem_filter here)
  | populateProjectWithItems project items => exact inv_start inv allowed.1 allowed.2
  | work i outcome =>
    simp only [ProjectState.apply]
    split
    · exact inv
    · rename_i job here
      split
      · exact inv
      · rename_i item rest todo
        exact inv_worked inv here (by rw [todo]; rfl) (allowed job here) (worked outcome)
  | finish i =>
    simp only [ProjectState.apply]
    split
    · exact inv
    · split
      · exact inv_finish inv ‹_›
      · exact inv
  | runCallback i =>
    simp only [ProjectState.apply]
    split
    · exact inv
    · exact inv_runCallback inv ‹_›
  | importItem file item => exact inv_linkFile inv allowed _
  | uploadToGhidra file item keep => exact inv_linkFile inv (inv.serverOr allowed) _
  | migrateStandaloneMetadata file server item =>
    simp only [ProjectState.apply, ProjectState.migrateStandaloneMetadata]
    split
    · exact inv
    · exact inv_linkFile inv (inv.serverOr allowed) _
  | clearLink file => exact inv_unlink inv fun held => (Table.of_lookup_erase held).2
  | deleted project item =>
    refine inv_unlink inv fun {file entry} held => ?_
    rw [Table.lookup_foldl_erase] at held
    split at held
    · cases held
    · exact held
  | removeFile file =>
    exact ⟨inv.temp, inv.apart, fun job there => (inv.jobs job there).same rfl rfl (inv.jobs job there).connected,
      fun job there => (inv.callbacks job there).same rfl, inv.server, inv.created, inv.linked⟩

theorem AtRest.inv (rest : AtRest home s) : Inv home s.link s where
  temp := rest.temp
  apart := by
    rw [rest.jobs]
    exact .nil
  jobs := by
    rw [rest.jobs]
    exact List.forall_mem_nil _
  callbacks := by
    rw [rest.callbacks]
    exact List.forall_mem_nil _
  server := rest.server
  created := by
    rw [rest.created]
    rintro file created ⟨⟩
  linked held := .inl held

end

/-- However the workers run beside each other and beside the user: a file that a worker
linked to an item holds what was downloaded for the item, from the server the project
names. -/
theorem linked_files_hold_their_items {start : ProjectState} (rest : AtRest home start)
    (reached : Reaches (Step sameName) (Allowed home) start s) {file : ProjectFile} {entry : FileEntry}
    (linked : s.link.lookup file = some entry) :
    start.link.lookup file = some entry ∨ file ∈ s.byHand ∨
      ∃ created, s.created.lookup file = some created ∧ created.download.item = entry.target ∧
        created.bytes = created.download.bytes ∧ s.server.lookup file.project = some created.download.server := by
  have inv : Inv home start.link s := by
    refine reached.invariant rest.inv fun s event next inv allowed step => ?_
    rw [Step] at step
    exact step ▸ inv_apply inv event allowed
  obtain before | byHand | ⟨⟨created, held, of⟩, named⟩ := inv.linked linked
  · exact .inl before
  · exact .inr (.inl byHand)
  · obtain ⟨same, server⟩ := inv.created held
    obtain ⟨entry', stored⟩ := Option.isSome_iff_exists.mp (AList.lookup_isSome.mpr named)
    exact .inr (.inr ⟨created, held, of, same, by rw [stored, inv.server stored, server]⟩)

deriving instance DecidableEq for ServerEntry, FileEntry

instance : ∀ stage outcome, Decidable (Whole stage outcome)
  | .writing download _, .written stored => inferInstanceAs (Decidable (download.bytes.length ≤ stored))
  | .downloading, _ | .opening _, _ | .creating _, _ | .removing _, _ => inferInstanceAs (Decidable True)
  | .writing .., .downloaded _ | .writing .., .opened _ | .writing .., .created _ | .writing .., .removed =>
    inferInstanceAs (Decidable True)

instance (home : String → ServerEntry) (s : ProjectState) : ∀ event, Decidable (Allowed home s event)
  | .connect server =>
    inferInstanceAs (Decidable (∀ job ∈ s.jobs, job.todo ≠ [] → server = home job.project))
  | .addItemToProject project item =>
    inferInstanceAs (Decidable (s.conn = home project ∧ ∀ job ∈ s.jobs, ∀ b ∈ job.todo, item.item ≠ b.item))
  | .bulkAddItemsToProject project items | .populateProjectWithItems project items =>
    inferInstanceAs
      (Decidable (s.conn = home project ∧ ∀ job ∈ s.jobs, ∀ a ∈ items, ∀ b ∈ job.todo, a.item ≠ b.item))
  | .work i outcome => inferInstanceAs (Decidable (∀ job ∈ s.jobs[i]?, Whole job.stage outcome))
  | .importItem file _ | .uploadToGhidra file _ _ => inferInstanceAs (Decidable (s.conn = home file.project))
  | .migrateStandaloneMetadata file server _ => inferInstanceAs (Decidable (server = home file.project))
  | .finish .. | .runCallback .. | .clearLink .. | .deleted .. | .removeFile .. => inferInstanceAs (Decidable True)

def server : ServerEntry := ⟨"re.example", 13100, "alice"⟩

def loader : Item := ⟨"Firmware", "/", "loader"⟩

def kernel : Item := ⟨"Firmware", "/", "kernel"⟩

def named (f g : String) : Bool := f = g

/-- Two workers take turns in the temporary directory, and the file of one is imported
into. -/
def turns : List Event :=
  [.addItemToProject "p" loader, .bulkAddItemsToProject "p" [kernel], .work 0 (.downloaded [⟨"a.bin", [1]⟩]),
    .work 1 (.downloaded [⟨"b.bin", [2]⟩, ⟨"kernel", [3]⟩]), .work 0 (.opened true), .work 1 (.opened true),
    .work 1 (.written 1), .work 0 (.written 1), .work 0 (.created (some "f0")), .work 1 (.created (some "f1")),
    .work 0 .removed, .work 1 .removed, .finish 1, .finish 0, .runCallback 0, .runCallback 0,
    .importItem ⟨"p", "f0"⟩ loader]

def taken : ProjectState := turns.foldl (ProjectState.apply named) { conn := server }

theorem kernel_linked :
    ∃ created, taken.created.lookup ⟨"p", "f1"⟩ = some created ∧ created.download.item = kernel ∧
      created.bytes = created.download.bytes ∧ taken.server.lookup "p" = some created.download.server := by
  have rest : AtRest (fun _ => server) { conn := server } :=
    ⟨rfl, rfl, rfl, Files.wf_empty, by rintro project entry ⟨⟩, rfl⟩
  have run : Reaches (Step named) (Allowed fun _ => server) { conn := server } taken :=
    Reaches.foldl .start (by decide +kernel)
  have linked : taken.link.lookup ⟨"p", "f1"⟩ = some (fileEntry kernel) := by decide +kernel
  have worked : (⟨"p", "f1"⟩ : ProjectFile) ∉ taken.byHand := by decide +kernel
  exact ((linked_files_hold_their_items rest run linked).resolve_left (by rintro ⟨⟩)).resolve_left worked

/-- Two items of one name share the temporary file: both get what was written last. -/
example :
    let old : Item := ⟨"Firmware", "/old/", "loader"⟩
    let s := ([.addItemToProject "p" loader, .addItemToProject "p" old, .work 0 (.downloaded [⟨"a.bin", [1]⟩]),
      .work 1 (.downloaded [⟨"a.bin", [2]⟩]), .work 0 (.opened true), .work 0 (.written 1), .work 1 (.opened true),
      .work 1 (.written 1), .work 0 (.created (some "f0")), .work 0 .removed, .finish 0, .runCallback 0] :
        List Event).foldl (ProjectState.apply named) { conn := server }
    s.linkedTo ⟨"p", "f0"⟩ = some loader ∧ (s.created.lookup ⟨"p", "f0"⟩).map CreatedFile.bytes = some [2] := by
  decide +kernel

end GhidraBridge.ProjectFiles
