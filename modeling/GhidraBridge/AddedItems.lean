import GhidraBridge.LinkedFiles

/-! How often an item is in a project. It is counted where it is linked and where a worker
or a callback still has it; no step but the start of a worker makes that more. -/
namespace GhidraBridge.ProjectFiles
open Lib Lib.Runs

variable {sameName : String → String → Bool} {s next : ProjectState} {project : String} {item : Item}

/-- The items a worker has added to a project or still has to. -/
def pendingOf (project : String) (job : Job) : List Item :=
  if job.project = project then job.added.map Added.item ++ job.todo else []

def pendingItems (s : ProjectState) (project : String) : List Item :=
  (s.jobs ++ s.callbacks).flatMap (pendingOf project)

def linkedCount (link : Table ProjectFile FileEntry) (files : List ProjectFile) (project : String) (item : Item) :
    Nat :=
  files.countP fun file => file.project = project ∧ (link.lookup file).map FileEntry.target = some item

def pendingCount (s : ProjectState) (project : String) (item : Item) : Nat := (pendingItems s project).count item

/-- What may be done: no worker is given an item of the project that one still has, a
project that is filled is a new one, and the user links no file to an item that a worker or
another file of the project has. -/
def Once (s : ProjectState) : Event → Prop
  | .addItemToProject project item => item ∉ pendingItems s project
  | .bulkAddItemsToProject project items => items.Nodup ∧ ∀ item ∈ items, item ∉ pendingItems s project
  | .populateProjectWithItems project items =>
    items.Nodup ∧ ∀ item ∈ items, item ∉ pendingItems s project ∧ item ∉ s.linkedItems project
  | .importItem file item | .uploadToGhidra file item _ | .migrateStandaloneMetadata file _ item =>
    item ∉ pendingItems s file.project ∧
      ∀ other ∈ s.files, other.project = file.project → s.linkedTo other = some item → other = file
  | _ => True

structure AtMostOnce (s : ProjectState) : Prop where
  files : s.files.Nodup
  items : ∀ project item, linkedCount s.link s.files project item + pendingCount s project item ≤ 1

theorem mem_linkedItems :
    item ∈ s.linkedItems project ↔ ∃ file ∈ s.files, file.project = project ∧ s.linkedTo file = some item := by
  simp [ProjectState.linkedItems, and_assoc]

theorem linkedCount_eq_zero : linkedCount s.link s.files project item = 0 ↔ item ∉ s.linkedItems project := by
  rw [linkedCount, List.countP_eq_zero, mem_linkedItems]
  simp [ProjectState.linkedTo]

/-! ## What a step makes of the counts -/

/-- Where one element changes, one more is counted at most, and that only if it counts
now. -/
theorem countP_changed {A : Type u} {xs : List A} (nodup : xs.Nodup) (a : A) {p q : A → Bool}
    (others : ∀ x ∈ xs, x ≠ a → p x = true → q x = true) : xs.countP p ≤ xs.countP q + (if p a then 1 else 0) := by
  induction xs with
  | nil => exact Nat.zero_le _
  | cons x rest ih =>
    obtain ⟨fresh, nodup⟩ := List.nodup_cons.mp nodup
    have later := ih nodup fun y there => others y (List.mem_cons_of_mem _ there)
    by_cases here : x = a
    · subst here
      have same : rest.countP p ≤ rest.countP q :=
        List.countP_mono_left fun y there =>
          others y (List.mem_cons_of_mem _ there) (by rintro rfl; exact fresh there)
      rw [List.countP_cons, List.countP_cons]
      omega
    · have first := others x List.mem_cons_self here
      rw [List.countP_cons, List.countP_cons]
      cases counted : p x with
      | false =>
        rw [if_neg Bool.false_ne_true]
        omega
      | true =>
        rw [first counted, if_pos rfl]
        omega

/-- Of the elements of a kind there is one at most. -/
theorem countP_le_one_iff {A : Type u} {xs : List A} (nodup : xs.Nodup) {p : A → Bool} :
    xs.countP p ≤ 1 ↔ ∀ a ∈ xs, ∀ b ∈ xs, p a = true → p b = true → a = b := by
  rw [List.countP_eq_length_filter]
  have apart := nodup.filter p
  constructor
  · intro one a here b there ofA ofB
    have here := List.mem_filter.mpr ⟨here, ofA⟩
    have there := List.mem_filter.mpr ⟨there, ofB⟩
    obtain ⟨only, only'⟩ := List.length_eq_one_iff.mp (Nat.le_antisymm one (List.length_pos_of_mem here))
    rw [only', List.mem_singleton] at here there
    rw [here, there]
  · intro same
    cases found : xs.filter p with
    | nil => exact Nat.zero_le _
    | cons a rest =>
      cases rest with
      | nil => exact Nat.le_refl _
      | cons b more =>
        have ofA := List.mem_filter.mp (found ▸ List.mem_cons_self : a ∈ xs.filter p)
        have ofB := List.mem_filter.mp (found ▸ List.mem_cons_of_mem a List.mem_cons_self : b ∈ xs.filter p)
        rw [found] at apart
        exact absurd (same a ofA.1 b ofB.1 ofA.2 ofB.2)
          ((List.pairwise_cons.mp apart).1 b List.mem_cons_self)

section
variable {i : Nat} {job after : Job} {outcome : Outcome}

/-- A worker that has no more than before adds nothing to what is pending. -/
theorem pendingCount_move (here : s.jobs[i]? = some job) (jobs : next.jobs = s.jobs.set i after)
    (callbacks : next.callbacks = s.callbacks)
    (fewer : (pendingOf project after).count item ≤ (pendingOf project job).count item) :
    pendingCount next project item ≤ pendingCount s project item := by
  have then' : next.jobs.Perm (after :: s.jobs.eraseIdx i) := jobs ▸ set_perm here after
  have old := ((perm_eraseIdx here).flatMap_right (pendingOf project)).count_eq item
  have new := (then'.flatMap_right (pendingOf project)).count_eq item
  rw [List.flatMap_cons, List.count_append] at old new
  simp only [pendingCount, pendingItems, List.flatMap_append, List.count_append, callbacks]
  omega

/-- Going on to the next item, with the file of this one or without. -/
theorem pendingOf_skip (x : Item) : (pendingOf project job.skip).count x ≤ (pendingOf project job).count x := by
  unfold pendingOf Job.skip
  dsimp only
  split
  · exact (List.Sublist.append_left (List.tail_sublist _) _).count_le x
  · exact Nat.le_refl _

theorem pendingOf_push {fileId : String} (first : job.todo.head? = some item) (x : Item) :
    (pendingOf project (job.push fileId item)).count x ≤ (pendingOf project job).count x := by
  have todo : item :: job.todo.tail = job.todo := List.cons_head?_tail first
  unfold pendingOf Job.push
  dsimp only
  split
  · rw [List.map_append, List.append_assoc, ← todo]
    exact Nat.le_refl _
  · exact Nat.le_refl _

theorem counts_move (here : s.jobs[i]? = some job) (link : next.link = s.link) (files : next.files = s.files)
    (jobs : next.jobs = s.jobs.set i after) (callbacks : next.callbacks = s.callbacks)
    (fewer : (pendingOf project after).count item ≤ (pendingOf project job).count item) :
    linkedCount next.link next.files project item + pendingCount next project item ≤
      linkedCount s.link s.files project item + pendingCount s project item := by
  rw [link, files]
  exact Nat.add_le_add_left (pendingCount_move here jobs callbacks fewer) _

/-- A call of a worker makes nothing more often there. -/
theorem counts_worked {first : Item} (here : s.jobs[i]? = some job) (at' : job.todo.head? = some first)
    (worked : Worked s i job first outcome next) :
    linkedCount next.link next.files project item + pendingCount next project item ≤
      linkedCount s.link s.files project item + pendingCount s project item := by
  cases worked with
  | idle => exact Nat.le_refl _
  | skipped => exact counts_move here rfl rfl rfl rfl (pendingOf_skip item)
  | downloaded bytes => exact counts_move here rfl rfl rfl rfl (Nat.le_refl _)
  | opened download => exact counts_move here rfl rfl rfl rfl (Nat.le_refl _)
  | written download file stored => exact counts_move here rfl rfl rfl rfl (Nat.le_refl _)
  | refused => exact counts_move here rfl rfl rfl rfl (Nat.le_refl _)
  | removed => exact counts_move here rfl rfl rfl rfl (pendingOf_skip item)
  | pushed fileId => exact counts_move here rfl rfl rfl rfl (pendingOf_push at' item)
  | created download fileId bytes stage read isNew =>
    refine Nat.add_le_add (Nat.le_of_eq ?_) (pendingCount_move here rfl rfl (Nat.le_refl _))
    rw [ProjectState.isNew, decide_eq_true_eq] at isNew
    have unlinked : s.link.lookup ⟨job.project, fileId⟩ = none := AList.lookup_eq_none.mpr isNew.2.2
    have counted : linkedCount s.link (s.files ++ [⟨job.project, fileId⟩]) project item =
        linkedCount s.link s.files project item := by
      simp [linkedCount, unlinked]
    exact counted

theorem nodup_worked {first : Item} (nodup : s.files.Nodup) (worked : Worked s i job first outcome next) :
    next.files.Nodup := by
  cases worked with
  | created download fileId bytes stage read isNew =>
    rw [ProjectState.isNew, decide_eq_true_eq] at isNew
    refine List.nodup_append.mpr ⟨nodup, List.nodup_singleton _, fun file there other new => ?_⟩
    obtain rfl := List.mem_singleton.mp new
    rintro rfl
    exact isNew.1 there
  | _ => exact nodup

/-- A worker that ends goes on as its callback. -/
theorem pendingCount_finish (here : s.jobs[i]? = some job) :
    pendingCount { s with jobs := s.jobs.eraseIdx i, callbacks := s.callbacks ++ [job] } project item =
      pendingCount s project item := by
  have old := ((perm_eraseIdx here).flatMap_right (pendingOf project)).count_eq item
  rw [List.flatMap_cons, List.count_append] at old
  simp only [pendingCount, pendingItems, List.flatMap_append, List.count_append, List.flatMap_singleton]
  omega

end

/-- Linking one file makes its item at most one more. -/
theorem linkedCount_set (link : Table ProjectFile FileEntry) {files : List ProjectFile} (nodup : files.Nodup)
    (file : ProjectFile) (entry : FileEntry) :
    linkedCount (link.set file entry) files project item ≤
      linkedCount link files project item + if file.project = project ∧ entry.target = item then 1 else 0 := by
  refine Nat.le_trans (countP_changed nodup file fun other there different linked => ?_) (Nat.add_le_add_left ?_ _)
  · rw [decide_eq_true_eq, Table.lookup_set, if_neg different] at linked
    exact decide_eq_true linked
  · rw [Table.lookup_set, if_pos rfl]
    simp

theorem linkedCount_writeAll {link : Table ProjectFile FileEntry} {files : List ProjectFile} (nodup : files.Nodup)
    (into : String) (added : List Added) :
    linkedCount (link.writeAll (fun a => ⟨into, a.fileId⟩) (fun a => fileEntry a.item) added) files project item ≤
      linkedCount link files project item + if into = project then (added.map Added.item).count item else 0 := by
  induction added generalizing link with
  | nil => exact Nat.le_add_right _ _
  | cons a rest ih =>
    have one : linkedCount (link.set ⟨into, a.fileId⟩ (fileEntry a.item)) files project item ≤
        linkedCount link files project item + if into = project ∧ a.item = item then 1 else 0 :=
      linkedCount_set link nodup ⟨into, a.fileId⟩ (fileEntry a.item)
    refine Nat.le_trans ih (Nat.le_trans (Nat.add_le_add_right one _) ?_)
    rw [List.map_cons, List.count_cons]
    by_cases here : into = project
    · by_cases same : a.item = item
      · simp only [here, same, beq_self_eq_true, and_self, if_true]
        omega
      · simp [here, same]
    · simp [here]

theorem atMostOnce_start {items : List Item} (once : AtMostOnce s) (nodup : items.Nodup)
    (fresh : ∀ item ∈ items, item ∉ pendingItems s project ∧ item ∉ s.linkedItems project) :
    AtMostOnce (s.start project items) := by
  unfold ProjectState.start
  split
  · exact once
  · refine ⟨once.files, fun probe item => ?_⟩
    have before := once.items probe item
    have started : pendingCount { s with jobs := s.jobs ++ [{ project, server := s.conn, todo := items }] } probe item =
        pendingCount s probe item + if project = probe then items.count item else 0 := by
      simp only [pendingCount, pendingItems, List.flatMap_append, List.count_append, List.flatMap_singleton]
      unfold pendingOf
      by_cases here : project = probe
      · simp only [here, if_true, List.map_nil, List.nil_append]
        omega
      · simp [here]
    show linkedCount s.link s.files probe item + _ ≤ 1
    rw [started]
    split
    · rename_i here
      subst here
      by_cases there : item ∈ items
      · obtain ⟨idle, unlinked⟩ := fresh item there
        have one := List.nodup_iff_count_le_one.mp nodup item
        rw [linkedCount_eq_zero.mpr unlinked, pendingCount, List.count_eq_zero.mpr idle]
        omega
      · rw [List.count_eq_zero.mpr there]
        exact before
    · exact before

theorem atMostOnce_runCallback {i : Nat} {job : Job} (once : AtMostOnce s) (here : s.callbacks[i]? = some job) :
    AtMostOnce ({ s with callbacks := s.callbacks.eraseIdx i }.storeAdded job) := by
  refine ⟨once.files, fun probe item => ?_⟩
  have before := once.items probe item
  have linked : linkedCount
        (s.link.writeAll (fun a => ⟨job.project, a.fileId⟩) (fun a => fileEntry a.item) job.added) s.files probe item ≤
      linkedCount s.link s.files probe item +
        if job.project = probe then (job.added.map Added.item).count item else 0 :=
    linkedCount_writeAll once.files job.project job.added
  have old := ((perm_eraseIdx here).flatMap_right (pendingOf probe)).count_eq item
  have added : (if job.project = probe then (job.added.map Added.item).count item else 0) ≤
      (pendingOf probe job).count item := by
    unfold pendingOf
    split
    · rw [List.count_append]
      exact Nat.le_add_right _ _
    · exact Nat.zero_le _
  rw [List.flatMap_cons, List.count_append] at old
  simp only [pendingCount, pendingItems, ProjectState.storeAdded, List.flatMap_append, List.count_append] at before ⊢
  omega

/-- A file may be linked to an item that nothing else of its project has. -/
theorem atMostOnce_linkFile {file : ProjectFile} {entry : FileEntry} (once : AtMostOnce s)
    (idle : entry.target ∉ pendingItems s file.project)
    (alone : ∀ other ∈ s.files, other.project = file.project → s.linkedTo other = some entry.target → other = file)
    (server : ServerEntry) : AtMostOnce (s.linkFile file server entry) := by
  refine ⟨once.files, fun project item => ?_⟩
  have before := once.items project item
  show linkedCount (s.link.set file entry) s.files project item + pendingCount s project item ≤ 1
  by_cases here : file.project = project ∧ entry.target = item
  · obtain ⟨rfl, rfl⟩ := here
    rw [pendingCount, List.count_eq_zero.mpr idle, Nat.add_zero]
    have only (other : ProjectFile) (there : other ∈ s.files)
        (linked : decide (other.project = file.project ∧
          ((s.link.set file entry).lookup other).map FileEntry.target = some entry.target) = true) :
        other = file := by
      obtain ⟨together, linked⟩ := of_decide_eq_true linked
      rw [Table.lookup_set] at linked
      split at linked
      · assumption
      · exact alone other there together linked
    exact (countP_le_one_iff once.files).mpr fun one here two there linked linked' =>
      (only one here linked).trans (only two there linked').symm
  · have linked : linkedCount (s.link.set file entry) s.files project item ≤ _ :=
      linkedCount_set s.link once.files file entry
    rw [if_neg here] at linked
    omega

/-- Links that are taken away, and files, leave nothing more often there. -/
theorem atMostOnce_fewer {link : Table ProjectFile FileEntry} {files : List ProjectFile} (once : AtMostOnce s)
    (fewer : ∀ {file entry}, link.lookup file = some entry → s.link.lookup file = some entry)
    (sub : files.Sublist s.files) : AtMostOnce { s with link, files } := by
  refine ⟨once.files.sublist sub, fun project item =>
    Nat.le_trans (Nat.add_le_add_right ?_ _) (once.items project item)⟩
  refine Nat.le_trans (List.countP_mono_left fun file there linked => ?_) sub.countP_le
  rw [decide_eq_true_eq] at linked ⊢
  obtain ⟨entry, held, of⟩ := Option.map_eq_some_iff.mp linked.2
  exact ⟨linked.1, by rw [fewer held, ← of]; rfl⟩

theorem atMostOnce_apply (once : AtMostOnce s) (event : Event) (allowed : Once s event) :
    AtMostOnce (s.apply sameName event) := by
  cases event with
  | connect server => exact ⟨once.files, once.items⟩
  | addItemToProject project item =>
    simp only [ProjectState.apply, ProjectState.addItemToProject]
    split
    · exact once
    · rename_i unlinked
      exact atMostOnce_start once (List.nodup_singleton _) (by simpa using ⟨allowed, unlinked⟩)
  | bulkAddItemsToProject project items =>
    refine atMostOnce_start once (allowed.1.filter _) fun item there => ?_
    obtain ⟨there, absent⟩ := List.mem_filter.mp there
    refine ⟨allowed.2 item there, fun linked => ?_⟩
    rw [decide_eq_true_eq] at absent
    exact absent (List.mem_map_of_mem linked)
  | populateProjectWithItems project items => exact atMostOnce_start once allowed.1 allowed.2
  | work i outcome =>
    simp only [ProjectState.apply]
    split
    · exact once
    · rename_i job here
      split
      · exact once
      · rename_i item rest todo
        have moved : Worked s i job item outcome (s.work sameName i job item job.stage outcome) := worked outcome
        refine ⟨nodup_worked once.files moved, fun project probe => ?_⟩
        exact Nat.le_trans (counts_worked here (by rw [todo]; rfl) moved) (once.items project probe)
  | finish i =>
    simp only [ProjectState.apply]
    split
    · exact once
    · split
      · refine ⟨once.files, fun project item => ?_⟩
        rw [pendingCount_finish ‹_›]
        exact once.items project item
      · exact once
  | runCallback i =>
    simp only [ProjectState.apply]
    split
    · exact once
    · exact atMostOnce_runCallback once ‹_›
  | importItem file item => exact atMostOnce_linkFile once allowed.1 allowed.2 _
  | uploadToGhidra file item keep => exact atMostOnce_linkFile once allowed.1 allowed.2 _
  | migrateStandaloneMetadata file server item =>
    simp only [ProjectState.apply, ProjectState.migrateStandaloneMetadata]
    split
    · exact once
    · exact atMostOnce_linkFile once allowed.1 allowed.2 _
  | clearLink file => exact atMostOnce_fewer once (fun held => (Table.of_lookup_erase held).2) (.refl _)
  | deleted project item =>
    refine atMostOnce_fewer once (fun {file entry} held => ?_) (.refl _)
    rw [Table.lookup_foldl_erase] at held
    split at held
    · cases held
    · exact held
  | removeFile file => exact atMostOnce_fewer once (fun held => held) List.erase_sublist

/-- No two files of a project are linked to one item. -/
def LinkedOnce (s : ProjectState) : Prop :=
  ∀ file ∈ s.files, ∀ other ∈ s.files, file.project = other.project →
    ∀ item, s.linkedTo file = some item → s.linkedTo other = some item → file = other

theorem linkedOnce_iff (files : s.files.Nodup) :
    LinkedOnce s ↔ ∀ project item, linkedCount s.link s.files project item ≤ 1 := by
  unfold linkedCount
  simp only [countP_le_one_iff files, decide_eq_true_eq]
  constructor
  · rintro once project item file here other there ⟨rfl, linked⟩ ⟨together, also'⟩
    exact once file here other there together.symm item linked also'
  · intro once file here other there together item linked also'
    exact once file.project item file here other there ⟨rfl, linked⟩ ⟨together.symm, also'⟩

/-- However workers, callbacks and the user take turns, no item gets a second file. -/
theorem items_linked_once {start : ProjectState} (files : start.files.Nodup)
    (idle : start.jobs = [] ∧ start.callbacks = []) (once : LinkedOnce start)
    (reached : Reaches (Step sameName) Once start s) : LinkedOnce s := by
  have begun : AtMostOnce start := by
    refine ⟨files, fun project item => ?_⟩
    have nothing : pendingCount start project item = 0 := by
      rw [pendingCount, pendingItems, idle.1, idle.2]
      rfl
    rw [nothing]
    exact (linkedOnce_iff files).mp once project item
  have kept : AtMostOnce s := by
    refine reached.invariant begun fun s event next once allowed step => ?_
    rw [Step] at step
    exact step ▸ atMostOnce_apply once event allowed
  refine (linkedOnce_iff kept.files).mpr fun project item => ?_
  exact Nat.le_trans (Nat.le_add_right _ _) (kept.items project item)

instance (s : ProjectState) : ∀ event, Decidable (Once s event)
  | .addItemToProject project item => inferInstanceAs (Decidable (item ∉ pendingItems s project))
  | .bulkAddItemsToProject project items =>
    inferInstanceAs (Decidable (items.Nodup ∧ ∀ item ∈ items, item ∉ pendingItems s project))
  | .populateProjectWithItems project items =>
    inferInstanceAs
      (Decidable (items.Nodup ∧ ∀ item ∈ items, item ∉ pendingItems s project ∧ item ∉ s.linkedItems project))
  | .importItem file item | .uploadToGhidra file item _ | .migrateStandaloneMetadata file _ item =>
    inferInstanceAs
      (Decidable (item ∉ pendingItems s file.project ∧
        ∀ other ∈ s.files, other.project = file.project → s.linkedTo other = some item → other = file))
  | .connect .. | .work .. | .finish .. | .runCallback .. | .clearLink .. | .deleted .. | .removeFile .. =>
    inferInstanceAs (Decidable True)

theorem turns_linked_once : taken.linkedItems "p" = [loader, kernel] ∧ LinkedOnce taken := by
  have run : Reaches (Step named) Once { conn := server } taken := Reaches.foldl .start (by decide +kernel)
  have idle : ({ conn := server } : ProjectState).files.Nodup := List.nodup_nil
  exact ⟨by decide +kernel, items_linked_once idle ⟨rfl, rfl⟩ (by rintro file ⟨⟩) run⟩

/-- An item that is added again before the first callback runs gets a second file. -/
example :
    let added (fileId : String) : List Event :=
      [.work 0 (.downloaded [⟨"a.bin", [1]⟩]), .work 0 (.opened true), .work 0 (.written 1),
        .work 0 (.created (some fileId)), .work 0 .removed, .finish 0]
    let events := .addItemToProject "p" loader :: .addItemToProject "p" loader :: (added "f0" ++ added "f1") ++
      [.runCallback 0, .runCallback 0]
    let s := events.foldl (ProjectState.apply named) { conn := server }
    s.linkedItems "p" = [loader, loader] := by decide +kernel

/-! ## Deleted items -/

theorem linkedTo_clearDeleted {file : ProjectFile} (here : file ∈ s.files) (of : file.project = project) :
    (s.clearDeleted project item).linkedTo file =
      if (s.linkedTo file).any fun linked => linked.repo = item.repo && linked.item = item.item then none
      else s.linkedTo file := by
  unfold ProjectState.clearDeleted
  dsimp only
  rw [ProjectState.linkedTo, Table.lookup_foldl_erase]
  by_cases cleared : (s.linkedTo file).any fun linked => linked.repo = item.repo && linked.item = item.item
  · rw [if_pos cleared, if_pos (List.mem_filter.mpr ⟨here, decide_eq_true ⟨of, cleared⟩⟩)]
    rfl
  · rw [if_neg cleared, if_neg]
    · rfl
    · intro there
      exact cleared (of_decide_eq_true (List.mem_filter.mp there).2).2

/-- The links of a deleted item go, and those of its namesakes in other folders with them. -/
theorem clearDeleted_exact_iff :
    (∀ file ∈ s.files, file.project = project →
      (s.clearDeleted project item).linkedTo file =
        if s.linkedTo file = some item then none else s.linkedTo file) ↔
      ∀ linked ∈ s.linkedItems project, linked.repo = item.repo → linked.item = item.item →
        linked.folder = item.folder := by
  constructor
  · intro exact' linked there repo name
    obtain ⟨file, here, of, held⟩ := mem_linkedItems.mp there
    have cleared := exact' file here of
    rw [linkedTo_clearDeleted here of, held] at cleared
    simp only [Option.any_some, repo, name, decide_true, Bool.and_self, if_true, Option.some_inj] at cleared
    split at cleared
    · rename_i same
      rw [same]
    · cases cleared
  · intro inFolder file here of
    rw [linkedTo_clearDeleted here of]
    cases held : s.linkedTo file with
    | none => rfl
    | some linked =>
      have folder := inFolder linked (mem_linkedItems.mpr ⟨file, here, of, held⟩)
      by_cases same : linked = item
      · simp [same]
      · have other : ¬(linked.repo = item.repo ∧ linked.item = item.item) := by
          rintro ⟨repo, name⟩
          obtain ⟨_, _, _⟩ := linked
          obtain ⟨_, _, _⟩ := item
          exact same (by rw [Item.mk.injEq]; exact ⟨repo, folder repo name, name⟩)
        simp [same, other]

end GhidraBridge.ProjectFiles
