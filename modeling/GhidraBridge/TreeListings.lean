import GhidraBridge.RepositoryTree

/-! What the repository tree shows. A callback finds the node it was started for unless
a disconnect has deleted it, and as long as a node is not listed again while its folder
is still being listed, what is under it is one listing of its own folder. -/
namespace GhidraBridge.TreeListings
open Lib.Runs RepositoryTree

def ids (s : RepositoryTree) : List Nat := s.nodes.map TreeNode.id

/-- What is under a node. -/
def kids (s : RepositoryTree) (id : Nat) : List NodeData := (s.children id).map TreeNode.data

def placeholder : NodeData := { kind := .placeholder, text := loading }

/-! ## Ids -/

/-- Ids are given out once, and a callback of the tree's generation has lost its node
exactly if it was deleted with the tree. -/
structure Known (s : RepositoryTree) : Prop where
  once : (ids s).Nodup
  given : ∀ node ∈ s.nodes, node.id < s.nextNode
  under : ∀ node ∈ s.nodes, ∀ id, node.place = .under id → id < s.nextNode
  parents : ∀ fetch ∈ s.fetches, fetch.parent < s.nextNode
  generations : ∀ fetch ∈ s.fetches, fetch.generation ≤ s.generation
  orphans : ∀ fetch ∈ s.fetches, fetch.generation = s.generation → (fetch.orphaned = true ↔ fetch.parent ∉ ids s)

section
variable {s : RepositoryTree}

theorem find?_eq (once : (ids s).Nodup) {node : TreeNode} (member : node ∈ s.nodes) :
    (s.nodes.find? fun other => other.id = node.id) = some node := by
  unfold ids at once
  generalize s.nodes = nodes at once member ⊢
  induction nodes with
  | nil => cases member
  | cons first rest ih =>
    rw [List.map_cons, List.nodup_cons] at once
    rw [List.find?_cons]
    rcases List.mem_cons.mp member with rfl | later
    · simp
    · have other : first.id ≠ node.id := fun same => once.1 (same ▸ List.mem_map_of_mem later)
      rw [decide_eq_false other]
      exact ih once.2 later

theorem node_eq (once : (ids s).Nodup) {node other : TreeNode} (member : node ∈ s.nodes) (too : other ∈ s.nodes)
    (same : node.id = other.id) : node = other := by
  have found := find?_eq once member
  rw [same, find?_eq once too] at found
  exact (Option.some.inj found).symm

theorem mem_ids {id : Nat} : id ∈ ids s ↔ ∃ node ∈ s.nodes, node.id = id := List.mem_map

theorem mem_of_find? {id : Nat} {node : TreeNode} (found : (s.nodes.find? fun other => other.id = id) = some node) :
    node ∈ s.nodes ∧ node.id = id :=
  ⟨List.mem_of_find?_eq_some found, by simpa using List.find?_some found⟩

theorem mem_ids_lt (known : Known s) {id : Nat} (member : id ∈ ids s) : id < s.nextNode := by
  obtain ⟨node, there, rfl⟩ := mem_ids.mp member
  exact known.given node there

/-- The nodes a sprout becomes. -/
def grown (s : RepositoryTree) (place : Place) : Sprout → List TreeNode
  | .leaf data => [⟨s.nextNode, place, data⟩]
  | .closed data => [⟨s.nextNode, place, data⟩, ⟨s.nextNode + 1, .under s.nextNode, placeholder⟩]

theorem addNode_nodes (place : Place) (sprout : Sprout) :
    (s.addNode place sprout).nodes = s.nodes ++ grown s place sprout := by
  cases sprout <;> rfl

theorem addNode_next (place : Place) (sprout : Sprout) :
    (s.addNode place sprout).nextNode = s.nextNode + (grown s place sprout).length := by
  cases sprout <;> rfl

theorem grown_ids (place : Place) (sprout : Sprout) :
    (grown s place sprout).map TreeNode.id = List.range' s.nextNode (grown s place sprout).length := by
  cases sprout <;> rfl

theorem addNode_known (known : Known s) {place : Place} (held : ∀ id, place = .under id → id < s.nextNode)
    (sprout : Sprout) : Known (s.addNode place sprout) := by
  have fetches : (s.addNode place sprout).fetches = s.fetches := by cases sprout <;> rfl
  have generation : (s.addNode place sprout).generation = s.generation := by cases sprout <;> rfl
  have all : ids (s.addNode place sprout) = ids s ++ List.range' s.nextNode (grown s place sprout).length := by
    rw [ids, addNode_nodes, List.map_append, grown_ids]
    rfl
  have more : s.nextNode ≤ (s.addNode place sprout).nextNode := by
    rw [addNode_next]
    exact Nat.le_add_right _ _
  refine ⟨?_, fun node member => ?_, fun node member id placed => ?_, ?_, ?_, ?_⟩
  · rw [all]
    refine known.once.append List.nodup_range' (List.disjoint_left.mpr fun id old new => ?_)
    have below := mem_ids_lt known old
    have above := (List.mem_range'_1.mp new).1
    omega
  · rw [addNode_nodes] at member
    rw [addNode_next]
    rcases List.mem_append.mp member with old | new
    · have below := known.given node old
      omega
    · have inside := grown_ids (s := s) place sprout ▸ List.mem_map_of_mem (f := TreeNode.id) new
      exact (List.mem_range'_1.mp inside).2
  · rw [addNode_nodes] at member
    rcases List.mem_append.mp member with old | new
    · exact (known.under node old id placed).trans_le more
    · cases sprout with
      | leaf data =>
        cases List.mem_singleton.mp new
        exact (held id placed).trans_le more
      | closed data =>
        rcases List.mem_cons.mp new with rfl | below
        · exact (held id placed).trans_le more
        · cases List.mem_singleton.mp below
          cases placed
          exact Nat.lt_add_of_pos_right (by decide)
  · rw [fetches]
    exact fun fetch member => (known.parents fetch member).trans_le more
  · rw [fetches, generation]
    exact known.generations
  · rw [fetches, generation]
    intro fetch member current
    rw [known.orphans fetch member current, all, List.mem_append]
    have below := known.parents fetch member
    have old : fetch.parent ∉ List.range' s.nextNode (grown s place sprout).length := fun new => by
      have above := (List.mem_range'_1.mp new).1
      omega
    simp only [old, or_false]

/-- Adding nodes touches only the nodes. -/
theorem addNodes_frame (place : Place) (all : List Sprout) :
    (s.addNodes place all).generation = s.generation ∧ (s.addNodes place all).fetches = s.fetches ∧
      (s.addNodes place all).shown = s.shown ∧ (s.addNodes place all).strayed = s.strayed := by
  unfold addNodes
  induction all generalizing s with
  | nil => exact ⟨rfl, rfl, rfl, rfl⟩
  | cons sprout rest ih =>
    obtain ⟨generation, fetches, shown, strayed⟩ := ih (s := s.addNode place sprout)
    rw [List.foldl_cons, generation, fetches, shown, strayed]
    cases sprout <;> exact ⟨rfl, rfl, rfl, rfl⟩

theorem addNodes_known {place : Place} (all : List Sprout) (known : Known s)
    (held : ∀ id, place = .under id → id < s.nextNode) : Known (s.addNodes place all) := by
  unfold addNodes
  induction all generalizing s with
  | nil => exact known
  | cons sprout rest ih =>
    refine ih (addNode_known known held sprout) fun id placed => ?_
    have below := held id placed
    rw [addNode_next]
    omega

theorem takeChildren_ids (id : Nat) : ids (s.takeChildren id) = ids s := by
  unfold ids takeChildren
  rw [List.map_map]
  refine List.map_congr_left fun node _ => ?_
  simp only [Function.comp_apply]
  split <;> rfl

theorem takeChildren_known (known : Known s) (id : Nat) : Known (s.takeChildren id) := by
  have back : ∀ node ∈ (s.takeChildren id).nodes, ∃ before ∈ s.nodes, node.id = before.id ∧
      (node.place = before.place ∨ node.place = .taken) := by
    intro node member
    obtain ⟨before, there, rfl⟩ := List.mem_map.mp member
    refine ⟨before, there, ?_⟩
    split
    · exact ⟨rfl, .inr rfl⟩
    · exact ⟨rfl, .inl rfl⟩
  refine ⟨?_, fun node member => ?_, fun node member other placed => ?_, known.parents, known.generations, ?_⟩
  · rw [takeChildren_ids]
    exact known.once
  · obtain ⟨before, there, same, -⟩ := back node member
    rw [same]
    exact known.given before there
  · obtain ⟨before, there, -, kept | taken⟩ := back node member
    · exact known.under before there other (kept ▸ placed)
    · rw [taken] at placed
      cases placed
  · rw [takeChildren_ids]
    exact known.orphans

theorem expandFolder_known (known : Known s) {id : Nat} (member : id ∈ ids s) (repo folder : String) :
    Known (s.expandFolder id repo folder) := by
  refine { known with parents := ?_, generations := ?_, orphans := ?_ }
  all_goals
    intro fetch there
    rcases List.mem_append.mp there with old | new
  · exact known.parents fetch old
  · cases List.mem_singleton.mp new
    exact mem_ids_lt known member
  · exact known.generations fetch old
  · cases List.mem_singleton.mp new
    exact Nat.le_refl _
  · exact known.orphans fetch old
  · cases List.mem_singleton.mp new
    intro _
    exact ⟨nofun, fun gone => absurd member gone⟩

/-- What expanding a node does: nothing, or its placeholder goes and a worker starts. -/
theorem onRepoItemExpanded_cases (id : Nat) :
    s.onRepoItemExpanded id = s ∨
      ∃ node child, node ∈ s.nodes ∧ node.id = id ∧ s.children id = [child] ∧ child.data.text = loading ∧
        s.onRepoItemExpanded id = (s.takeChildren id).expandFolder id node.data.repo (dirOf node.data) := by
  unfold onRepoItemExpanded
  split
  · rename_i node child found only
    obtain ⟨member, same⟩ := mem_of_find? found
    split
    · rename_i text
      exact .inr ⟨node, child, member, same, only, text, rfl⟩
    · exact .inl rfl
  · exact .inl rfl

theorem onRepoItemExpanded_known (known : Known s) (id : Nat) : Known (s.onRepoItemExpanded id) := by
  rcases onRepoItemExpanded_cases (s := s) id with same | ⟨node, child, member, rfl, -, -, same⟩
  · rw [same]
    exact known
  · rw [same]
    have kept : node.id ∈ ids (s.takeChildren node.id) := by
      rw [takeChildren_ids]
      exact mem_ids.mpr ⟨node, member, rfl⟩
    exact expandFolder_known (takeChildren_known known node.id) kept _ _

theorem mem_clear {node : TreeNode} : node ∈ s.clear.nodes ↔ node ∈ s.nodes ∧ s.inTree node = false := by
  simp [clear]

theorem clear_ids_sublist : (ids s.clear).Sublist (ids s) := List.filter_sublist.map _

/-- A tree filled anew outdates every worker. -/
theorem outdated_known (known : Known s) : Known { s with generation := s.generation + 1 }.clear where
  once := known.once.sublist clear_ids_sublist
  given node member := known.given node (mem_clear.mp member).1
  under node member := known.under node (mem_clear.mp member).1
  parents := known.parents
  generations fetch member := Nat.le_succ_of_le (known.generations fetch member)
  orphans fetch member current := by
    have before := known.generations fetch member
    have after : fetch.generation = s.generation + 1 := current
    omega

theorem populateRepos_known (known : Known s) (repos : List String) : Known (s.populateRepos repos) :=
  addNodes_known _ (outdated_known known) nofun

theorem refreshed_known (known : Known s) (repos : List String) (reopened : Option (List String)) :
    Known (s.refreshed repos reopened) :=
  List.foldlRecOn _ _ (populateRepos_known known repos) fun _ filled id _ => onRepoItemExpanded_known filled id

theorem reload_known (known : Known s) (repo : String) : Known (s.reload repo) := by
  unfold reload
  split
  · exact known
  · rename_i node found
    have member := (List.mem_of_find?_eq_some found)
    refine onRepoItemExpanded_known (addNode_known (takeChildren_known known node.id) ?_ _) node.id
    rintro id ⟨⟩
    exact known.given node member

/-- A disconnect deletes the tree, and with it the nodes of its workers. -/
theorem disconnected_known (known : Known s) : Known s.disconnected := by
  have same : s.disconnected.nodes = s.clear.nodes := rfl
  refine
    { once := known.once.sublist clear_ids_sublist
      given := fun node member => known.given node (mem_clear.mp member).1
      under := fun node member => known.under node (mem_clear.mp member).1
      parents := fun fetch member => ?_
      generations := fun fetch member => ?_
      orphans := fun fetch member current => ?_ }
  all_goals obtain ⟨before, there, rfl⟩ := List.mem_map.mp member
  · exact known.parents before there
  · exact known.generations before there
  · have old := known.orphans before there current
    have deleted : before.parent ∉ ids s.clear ↔
        before.parent ∉ ids s ∨ ∃ node ∈ s.nodes, node.id = before.parent ∧ s.inTree node = true := by
      constructor
      · intro gone
        by_cases was : before.parent ∈ ids s
        · obtain ⟨node, member, own⟩ := mem_ids.mp was
          refine .inr ⟨node, member, own, ?_⟩
          by_contra out
          exact gone (mem_ids.mpr ⟨node, mem_clear.mpr ⟨member, by simpa using out⟩, own⟩)
        · exact .inl was
      · rintro (never | ⟨node, member, own, inside⟩) still
        · exact never (clear_ids_sublist.subset still)
        · obtain ⟨other, left, too⟩ := mem_ids.mp still
          obtain ⟨too', outside⟩ := mem_clear.mp left
          cases node_eq known.once member too' (own.trans too.symm)
          rw [inside] at outside
          cases outside
    have kept : ids s.disconnected = ids s.clear := rfl
    rw [kept, deleted, Bool.or_eq_true, old, List.any_eq_true]
    simp only [Bool.and_eq_true, decide_eq_true_eq]

theorem erased_known (known : Known s) (i : Nat) : Known { s with fetches := s.fetches.eraseIdx i } :=
  have fewer : ∀ fetch ∈ s.fetches.eraseIdx i, fetch ∈ s.fetches := fun _ => List.mem_of_mem_eraseIdx
  { known with
    parents := fun fetch here => known.parents fetch (fewer fetch here)
    generations := fun fetch here => known.generations fetch (fewer fetch here)
    orphans := fun fetch here => known.orphans fetch (fewer fetch here) }

theorem fetched_known (known : Known s) {fetch : Fetch} (held : fetch.parent < s.nextNode) (listing : Listing) :
    Known (s.fetched fetch listing) := by
  unfold fetched
  split
  · exact known
  split
  · split
    · exact { known with }
    · rename_i node found
      have below : ∀ id, Place.under fetch.parent = .under id → id < s.nextNode := by
        rintro id ⟨⟩
        exact held
      have grown := addNodes_known (sprouts node.data listing) known below
      exact { grown with }
  · exact known

theorem step_known {act : Act} {next : RepositoryTree} (known : Known s) (moved : Step s act next) : Known next := by
  unfold Step step at moved
  cases act with
  | refreshed repos reopened => exact Option.some.inj moved ▸ refreshed_known known repos reopened
  | expand id => exact Option.some.inj moved ▸ onRepoItemExpanded_known known id
  | disconnected => exact Option.some.inj moved ▸ disconnected_known known
  | reload repo => exact Option.some.inj moved ▸ reload_known known repo
  | fetched i opened subfolders items =>
    dsimp only at moved
    split at moved
    · cases moved
    · rename_i fetch there
      rw [← Option.some.inj moved]
      exact fetched_known (erased_known known i) (known.parents fetch (List.mem_of_getElem? there)) _

theorem start_known : Known {} := by
  constructor <;> simp [ids]

theorem reached_known {guard : RepositoryTree → Act → Prop} (reached : Reaches Step guard {} s) : Known s :=
  reached.invariant start_known fun _ _ _ known _ moved => step_known known moved

/-! ## Deleted nodes -/

theorem onRepoItemExpanded_strayed (id : Nat) : (s.onRepoItemExpanded id).strayed = s.strayed := by
  rcases onRepoItemExpanded_cases (s := s) id with same | ⟨node, child, -, -, -, -, same⟩ <;> rw [same]
  rfl

theorem refreshed_strayed (repos : List String) (reopened : Option (List String)) :
    (s.refreshed repos reopened).strayed = s.strayed :=
  List.foldlRecOn (motive := fun t : RepositoryTree => t.strayed = s.strayed) _ _ (addNodes_frame .top _).2.2.2
    fun _ before id _ => (onRepoItemExpanded_strayed id).trans before

theorem reload_strayed (repo : String) : (s.reload repo).strayed = s.strayed := by
  unfold reload
  split
  · rfl
  · exact onRepoItemExpanded_strayed _

/-- A callback writes to a deleted node if it is of the tree's generation, has something
to show and does not find its node. -/
theorem fetched_strayed (fetch : Fetch) (listing : Listing) :
    (s.fetched fetch listing).strayed ≠ s.strayed ↔
      fetch.generation = s.generation ∧ listing.shows = true ∧ fetch.parent ∉ ids s := by
  unfold fetched
  split
  · rename_i outdated
    simp [outdated]
  · rename_i current
    split
    · rename_i shows
      split
      · rename_i lost
        have gone : fetch.parent ∉ ids s := fun still => by
          obtain ⟨node, member, own⟩ := mem_ids.mp still
          simpa [own] using List.find?_eq_none.mp lost node member
        simp [shows, gone, not_ne_iff.mp current]
      · rename_i node found
        obtain ⟨member, own⟩ := mem_of_find? found
        have here : fetch.parent ∈ ids s := mem_ids.mpr ⟨node, member, own⟩
        simp [(addNodes_frame (s := s) _ _).2.2.2, here]
    · rename_i hidden
      simp [hidden]

end

/-- In every run of the panel's tree, the steps that write to a deleted node are exactly
the callbacks with a listing to show whose node a disconnect has deleted, as long as the
tree has not been filled anew since. -/
theorem strays_after_disconnect {s next : RepositoryTree} {act : Act}
    (reached : Reaches Step (fun _ _ => True) {} s) (moved : Step s act next) :
    next.strayed ≠ s.strayed ↔
      ∃ i opened subfolders items fetch, act = .fetched i opened subfolders items ∧ s.fetches[i]? = some fetch ∧
        fetch.orphaned = true ∧ fetch.generation = s.generation ∧
          (fetchFolder opened subfolders items).shows = true := by
  have known := reached_known reached
  unfold Step step at moved
  cases act with
  | refreshed repos reopened =>
    cases moved
    exact iff_of_false (not_not.mpr (refreshed_strayed repos reopened)) nofun
  | expand id =>
    cases moved
    exact iff_of_false (not_not.mpr (onRepoItemExpanded_strayed id)) nofun
  | disconnected =>
    cases moved
    exact iff_of_false (not_not.mpr rfl) nofun
  | reload repo =>
    cases moved
    exact iff_of_false (not_not.mpr (reload_strayed repo)) nofun
  | fetched i opened subfolders items =>
    dsimp only at moved
    split at moved
    · cases moved
    · rename_i fetch there
      cases moved
      rw [fetched_strayed (s := { s with fetches := s.fetches.eraseIdx i })]
      have lost := known.orphans fetch (List.mem_of_getElem? there)
      constructor
      · rintro ⟨current, shows, gone⟩
        exact ⟨i, opened, subfolders, items, fetch, rfl, there, (lost current).mpr gone, current, shows⟩
      · rintro ⟨_, _, _, _, other, ⟨⟩, found, orphaned, current, shows⟩
        cases there.symm.trans found
        exact ⟨current, shows, (lost current).mp orphaned⟩

theorem listing_strays_after_disconnect :
    ∃ s next, Step s (.fetched 0 (.ok ()) (.ok ["bin"]) (.ok [])) next ∧ next.strayed ≠ s.strayed := by
  let opened : RepositoryTree := ({} : RepositoryTree).refreshed ["firmware"] none
  have filled : Step {} (.refreshed ["firmware"] none) opened := rfl
  have cleared : Step opened .disconnected opened.disconnected := rfl
  have reached : Reaches Step (fun _ _ => True) {} opened.disconnected :=
    .step (.step .start trivial filled) trivial cleared
  have worker : opened.disconnected.fetches[0]? = some ⟨0, "firmware", "/", 1, true⟩ := by decide +kernel
  obtain ⟨next, moved⟩ := Option.isSome_iff_exists.mp (show (opened.disconnected.step
    (.fetched 0 (.ok ()) (.ok ["bin"]) (.ok []))).isSome = true by decide +kernel)
  refine ⟨opened.disconnected, next, moved, (strays_after_disconnect reached moved).mpr ?_⟩
  exact ⟨0, _, _, _, _, rfl, worker, rfl, by decide +kernel, by decide +kernel⟩

end GhidraBridge.TreeListings
