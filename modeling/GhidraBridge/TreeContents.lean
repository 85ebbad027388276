import Mathlib.Data.List.Perm.Basic
import GhidraBridge.TreeListings

/-! What is under the nodes of the repository tree. As long as a repository is not
listed again while it is still being listed, a node has one worker at a time, and what is
under it is the listing of its own folder. -/
namespace GhidraBridge.TreeContents
open Lib.Runs RepositoryTree TreeListings

/-- The workers whose callback will find its node. -/
def live (s : RepositoryTree) : List Fetch :=
  s.fetches.filter fun fetch => fetch.generation = s.generation && !fetch.orphaned

/-- What is under a node: nothing, its placeholder, or what a worker for its own folder
has brought back. -/
def Shows (s : RepositoryTree) (node : TreeNode) : Prop :=
  kids s node.id = [] ∨ kids s node.id = [placeholder] ∨
    ∃ fetch listing, (fetch, listing) ∈ s.shown ∧ fetch.parent = node.id ∧ fetch.repo = node.data.repo ∧
      fetch.folder = dirOf node.data ∧ kids s node.id = (sprouts node.data listing).map Sprout.data

/-- A node has one worker at a time, which lists the node's own folder, and has nothing
under it until then. -/
structure Queued (s : RepositoryTree) : Prop where
  waiting : ∀ fetch ∈ live s, kids s fetch.parent = []
  apart : ((live s).map Fetch.parent).Nodup
  own : ∀ fetch ∈ live s, ∀ node ∈ s.nodes, node.id = fetch.parent →
    fetch.repo = node.data.repo ∧ fetch.folder = dirOf node.data

structure Filled (s : RepositoryTree) : Prop where
  known : Known s
  listed : ∀ node ∈ s.nodes, Shows s node
  queued : Queued s

section
variable {s t : RepositoryTree}

theorem mem_live {fetch : Fetch} :
    fetch ∈ live s ↔ fetch ∈ s.fetches ∧ fetch.generation = s.generation ∧ fetch.orphaned = false := by
  simp [live]

theorem live_mem_ids (known : Known s) {fetch : Fetch} (member : fetch ∈ live s) : fetch.parent ∈ ids s := by
  obtain ⟨there, current, kept⟩ := mem_live.mp member
  by_contra gone
  rw [(known.orphans fetch there current).mpr gone] at kept
  cases kept

/-- What is listed stays listed where the nodes and what is under them are the same. -/
theorem listed_of (listed : ∀ node ∈ s.nodes, Shows s node) (shown : s.shown ⊆ t.shown)
    (back : ∀ node ∈ t.nodes, kids t node.id = [] ∨ kids t node.id = [placeholder] ∨
      ∃ before ∈ s.nodes, before.id = node.id ∧ before.data = node.data ∧ kids t node.id = kids s node.id) :
    ∀ node ∈ t.nodes, Shows t node := by
  intro node member
  rcases back node member with none | one | ⟨before, there, same, data, alike⟩
  · exact .inl none
  · exact .inr (.inl one)
  · unfold Shows
    rw [alike, ← same, ← data]
    rcases listed before there with none | one | ⟨fetch, listing, kept, rest⟩
    · exact .inl none
    · exact .inr (.inl one)
    · exact .inr (.inr ⟨fetch, listing, shown kept, rest⟩)

/-- A queue stays one where workers are done or lost and nothing comes under a node that
is waited for. -/
theorem queued_of (queued : Queued s) (fewer : (live t).Sublist (live s))
    (bare : ∀ fetch ∈ live t, kids s fetch.parent = [] → kids t fetch.parent = [])
    (back : ∀ fetch ∈ live t, ∀ node ∈ t.nodes, node.id = fetch.parent →
      ∃ before ∈ s.nodes, before.id = node.id ∧ before.data = node.data) : Queued t where
  waiting fetch member := bare fetch member (queued.waiting fetch (fewer.subset member))
  apart := queued.apart.sublist (fewer.map _)
  own fetch member node there same := by
    obtain ⟨before, was, alike, data⟩ := back fetch member node there same
    rw [← data]
    exact queued.own fetch (fewer.subset member) before was (alike.trans same)

/-! ## Children -/

theorem kids_fresh (known : Known s) {id : Nat} (fresh : s.nextNode ≤ id) : kids s id = [] := by
  unfold kids RepositoryTree.children
  rw [List.filter_eq_nil_iff.mpr, List.map_nil]
  intro node member under
  have below := known.under node member id (by simpa using under)
  omega

theorem kids_addNode_all (place : Place) (sprout : Sprout) (id : Nat) :
    kids (s.addNode place sprout) id =
      kids s id ++ ((grown s place sprout).filter fun node => node.place = .under id).map TreeNode.data := by
  unfold kids RepositoryTree.children
  rw [addNode_nodes, List.filter_append, List.map_append]

theorem kids_addNode {place : Place} (sprout : Sprout) {id : Nat} (old : id < s.nextNode) :
    kids (s.addNode place sprout) id = kids s id ++ if place = .under id then [sprout.data] else [] := by
  have other : s.nextNode ≠ id := (Nat.ne_of_lt old).symm
  rw [kids_addNode_all]
  cases sprout <;> by_cases under : place = .under id <;> simp [grown, under, other, Sprout.data]

theorem kids_addNodes {place : Place} (all : List Sprout) {id : Nat} (old : id < s.nextNode) :
    kids (s.addNodes place all) id = kids s id ++ if place = .under id then all.map Sprout.data else [] := by
  induction all generalizing s with
  | nil => simp [addNodes]
  | cons sprout rest ih =>
    have still : id < (s.addNode place sprout).nextNode := by
      rw [addNode_next]
      omega
    rw [show s.addNodes place (sprout :: rest) = (s.addNode place sprout).addNodes place rest from rfl, ih still,
      kids_addNode sprout old]
    split <;> simp

/-- A new node has its placeholder under it, or nothing. -/
theorem addNode_new (known : Known s) {place : Place} (held : ∀ id, place = .under id → id < s.nextNode)
    {sprout : Sprout} {node : TreeNode} (new : node ∈ grown s place sprout) :
    s.nextNode ≤ node.id ∧
      (kids (s.addNode place sprout) node.id = [] ∨ kids (s.addNode place sprout) node.id = [placeholder]) := by
  have outside : ∀ id, s.nextNode ≤ id → place ≠ .under id := fun id fresh under => by
    have below := held id under
    omega
  cases sprout with
  | leaf data =>
    cases List.mem_singleton.mp new
    refine ⟨Nat.le_refl _, .inl ?_⟩
    rw [kids_addNode_all, kids_fresh known (Nat.le_refl _)]
    simp [grown, outside]
  | closed data =>
    rcases List.mem_cons.mp new with rfl | below
    · refine ⟨Nat.le_refl _, .inr ?_⟩
      rw [kids_addNode_all, kids_fresh known (Nat.le_refl _)]
      simp [grown, outside]
    · cases List.mem_singleton.mp below
      refine ⟨Nat.le_succ _, .inl ?_⟩
      rw [kids_addNode_all, kids_fresh known (Nat.le_succ _)]
      simp [grown, outside]

theorem addNodes_new (known : Known s) {place : Place} (held : ∀ id, place = .under id → id < s.nextNode)
    {all : List Sprout} {node : TreeNode} (member : node ∈ (s.addNodes place all).nodes) :
    node ∈ s.nodes ∨ s.nextNode ≤ node.id ∧
      (kids (s.addNodes place all) node.id = [] ∨ kids (s.addNodes place all) node.id = [placeholder]) := by
  induction all generalizing s with
  | nil => exact .inl member
  | cons sprout rest ih =>
    have more : s.nextNode ≤ (s.addNode place sprout).nextNode := by
      rw [addNode_next]
      exact Nat.le_add_right _ _
    have grownKnown := addNode_known known held sprout
    have split := ih grownKnown (fun id under => (held id under).trans_le more) member
    change _ ∨ _ ∧ (kids ((s.addNode place sprout).addNodes place rest) _ = _ ∨
      kids ((s.addNode place sprout).addNodes place rest) _ = _)
    rcases split with before | ⟨fresh, contents⟩
    · rw [addNode_nodes] at before
      rcases List.mem_append.mp before with old | new
      · exact .inl old
      · obtain ⟨fresh, contents⟩ := addNode_new known held new
        have there : node ∈ (s.addNode place sprout).nodes := by
          rw [addNode_nodes]
          exact List.mem_append_right _ new
        have outside : place ≠ .under node.id := fun under => by
          have below := held node.id under
          omega
        rw [kids_addNodes rest (grownKnown.given node there), if_neg outside, List.append_nil]
        exact .inr ⟨fresh, contents⟩
    · exact .inr ⟨more.trans fresh, contents⟩

theorem kids_takeChildren (id other : Nat) :
    kids (s.takeChildren id) other = if other = id then [] else kids s other := by
  unfold kids RepositoryTree.children takeChildren
  dsimp only
  induction s.nodes with
  | nil => simp
  | cons node rest ih =>
    rw [List.map_cons, List.filter_cons, List.filter_cons]
    by_cases under : node.place = .under id <;> by_cases same : other = id
    · simpa [under, same] using ih
    · have apart : id ≠ other := fun alike => same alike.symm
      simpa [under, same, apart] using ih
    · subst same
      simpa [under] using ih
    · by_cases here : node.place = .under other
      · simpa [under, same, here] using ih
      · simpa [under, same, here] using ih

theorem rooted_succ {nodes : List TreeNode} {steps : Nat} {node : TreeNode} (ends : rooted nodes steps node = true) :
    rooted nodes (steps + 1) node = true := by
  induction steps generalizing node with
  | zero => cases ends
  | succ steps ih =>
    unfold rooted at ends ⊢
    split at ends
    · rfl
    · cases ends
    · split at ends
      · cases ends
      · exact ih ends

/-- What is under a node that is not in the tree is not in the tree either. -/
theorem under_outside (known : Known s) {node child : TreeNode} (there : node ∈ s.nodes)
    (outside : s.inTree node = false) (under : child.place = .under node.id) : s.inTree child = false := by
  unfold inTree at outside ⊢
  cases size : s.nodes.length with
  | zero => rfl
  | succ steps =>
    rw [rooted, under]
    dsimp only
    rw [find?_eq known.once there]
    dsimp only
    by_contra ends
    rw [size, rooted_succ (by simpa using ends)] at outside
    cases outside

theorem kids_clear (known : Known s) {node : TreeNode} (left : node ∈ s.clear.nodes) :
    kids s.clear node.id = kids s node.id := by
  obtain ⟨there, outside⟩ := mem_clear.mp left
  unfold kids RepositoryTree.children clear
  rw [List.filter_filter]
  refine congrArg _ (List.filter_congr fun child _ => ?_)
  by_cases under : child.place = .under node.id
  · simp [under, under_outside known there outside under]
  · simp [under]

/-! ## Steps -/

theorem takeChildren_nodes {id : Nat} {node : TreeNode} (member : node ∈ (s.takeChildren id).nodes) :
    ∃ before ∈ s.nodes, before.id = node.id ∧ before.data = node.data := by
  obtain ⟨before, there, rfl⟩ := List.mem_map.mp member
  refine ⟨before, there, ?_⟩
  split <;> exact ⟨rfl, rfl⟩

theorem takeChildren_filled (filled : Filled s) (id : Nat) : Filled (s.takeChildren id) where
  known := takeChildren_known filled.known id
  listed := by
    refine listed_of filled.listed (List.Subset.refl _) fun node member => ?_
    obtain ⟨before, there, same, data⟩ := takeChildren_nodes member
    rw [kids_takeChildren]
    split
    · exact .inl rfl
    · exact .inr (.inr ⟨before, there, same, data, rfl⟩)
  queued := by
    refine queued_of filled.queued (List.Sublist.refl _) (fun fetch _ bare => ?_) fun _ _ _ member _ =>
      takeChildren_nodes member
    rw [kids_takeChildren]
    split
    · rfl
    · exact bare

/-- A worker starts for a node that has nothing under it and no worker. -/
theorem expandFolder_filled (filled : Filled s) {node : TreeNode} (there : node ∈ s.nodes)
    (bare : kids s node.id = []) (idle : ∀ fetch ∈ live s, fetch.parent ≠ node.id) :
    Filled (s.expandFolder node.id node.data.repo (dirOf node.data)) := by
  have all : live (s.expandFolder node.id node.data.repo (dirOf node.data)) =
      live s ++ [⟨node.id, node.data.repo, dirOf node.data, s.generation, false⟩] := by
    rw [live, expandFolder, List.filter_append]
    simp [live]
  have member : node.id ∈ ids s := mem_ids.mpr ⟨node, there, rfl⟩
  refine ⟨expandFolder_known filled.known member _ _, filled.listed, ?_, ?_, ?_⟩
  · intro fetch new
    rw [all] at new
    rcases List.mem_append.mp new with old | new
    · exact filled.queued.waiting fetch old
    · cases List.mem_singleton.mp new
      exact bare
  · rw [all, List.map_append, List.nodup_append']
    refine ⟨filled.queued.apart, List.nodup_singleton _, List.disjoint_singleton.mpr fun old => ?_⟩
    obtain ⟨fetch, here, same⟩ := List.mem_map.mp old
    exact idle fetch here same
  · intro fetch new other here same
    rw [all] at new
    rcases List.mem_append.mp new with old | new
    · exact filled.queued.own fetch old other here same
    · cases List.mem_singleton.mp new
      cases node_eq filled.known.once here there same
      exact ⟨rfl, rfl⟩

theorem onRepoItemExpanded_filled (filled : Filled s) (id : Nat) : Filled (s.onRepoItemExpanded id) := by
  rcases onRepoItemExpanded_cases (s := s) id with same | ⟨node, child, there, rfl, only, -, same⟩
  · rw [same]
    exact filled
  · rw [same]
    have bare : kids (s.takeChildren node.id) node.id = [] := by rw [kids_takeChildren, if_pos rfl]
    have idle : ∀ fetch ∈ live s, fetch.parent ≠ node.id := fun fetch member own => by
      have waiting := filled.queued.waiting fetch member
      rw [own, kids, only] at waiting
      cases waiting
    have kept : node.id ∈ ids (s.takeChildren node.id) := by
      rw [takeChildren_ids]
      exact mem_ids.mpr ⟨node, there, rfl⟩
    obtain ⟨after, here, own⟩ := mem_ids.mp kept
    obtain ⟨before, was, alike, data⟩ := takeChildren_nodes here
    rw [node_eq filled.known.once was there (alike.trans own)] at data
    have started := expandFolder_filled (takeChildren_filled filled node.id) here (by rw [own]; exact bare)
      (by rw [own]; exact idle)
    rwa [own, ← data] at started

/-- New nodes under a node without a worker. -/
theorem added_filled (filled : Filled s) {place : Place} {all : List Sprout}
    (held : ∀ id, place = .under id → id < s.nextNode) (after : Known t)
    (nodes : t.nodes = (s.addNodes place all).nodes) (same : live t = live s) (shown : s.shown ⊆ t.shown)
    (idle : ∀ fetch ∈ live s, place ≠ .under fetch.parent)
    (shows : ∀ node ∈ s.nodes, place = .under node.id → Shows t node) : Filled t := by
  have known := filled.known
  have alike : ∀ id, kids t id = kids (s.addNodes place all) id := fun id => by
    unfold kids RepositoryTree.children
    rw [nodes]
  have others : ∀ id, id < s.nextNode → place ≠ .under id → kids t id = kids s id := fun id old outside => by
    rw [alike, kids_addNodes all old, if_neg outside, List.append_nil]
  have back : ∀ node ∈ t.nodes, node ∈ s.nodes ∨
      s.nextNode ≤ node.id ∧ (kids t node.id = [] ∨ kids t node.id = [placeholder]) := fun node member => by
    rw [alike]
    exact addNodes_new known held (nodes ▸ member)
  have kept : (live t).Sublist (live s) := same ▸ List.Sublist.refl _
  refine ⟨after, fun node member => ?_, queued_of filled.queued kept (fun fetch member bare => ?_) ?_⟩
  · rcases back node member with old | ⟨-, contents⟩
    · by_cases here : place = .under node.id
      · exact shows node old here
      · unfold Shows
        rw [others node.id (known.given node old) here]
        rcases filled.listed node old with none | one | ⟨fetch, listing, kept, rest⟩
        · exact .inl none
        · exact .inr (.inl one)
        · exact .inr (.inr ⟨fetch, listing, shown kept, rest⟩)
    · exact contents.elim .inl fun one => .inr (.inl one)
  · rw [same] at member
    rw [others fetch.parent (known.parents fetch (mem_live.mp member).1) (idle fetch member)]
    exact bare
  · intro fetch member node there own
    rw [same] at member
    have below := known.parents fetch (mem_live.mp member).1
    rcases back node there with old | ⟨fresh, -⟩
    · exact ⟨node, old, rfl, rfl⟩
    · omega

/-- A tree filled anew has no workers yet. -/
theorem populateRepos_filled (filled : Filled s) (repos : List String) : Filled (s.populateRepos repos) := by
  have known := filled.known
  have emptied := outdated_known known
  have none : live { s with generation := s.generation + 1 }.clear = [] := by
    refine List.eq_nil_iff_forall_not_mem.mpr fun fetch member => ?_
    obtain ⟨there, current, -⟩ := mem_live.mp member
    have before := known.generations fetch there
    have after : fetch.generation = s.generation + 1 := current
    omega
  have outdated : Filled { s with generation := s.generation + 1 }.clear := by
    refine ⟨emptied, ?_, ?_⟩
    · refine listed_of filled.listed (List.Subset.refl _) fun node member => .inr (.inr ⟨node, ?_, rfl, rfl, ?_⟩)
      · exact (mem_clear.mp member).1
      · exact kids_clear known member
    · constructor <;> rw [none] <;> simp
  obtain ⟨generation, fetches, shown, -⟩ := addNodes_frame (s := { s with generation := s.generation + 1 }.clear)
    .top (repos.map repoNode)
  have top : ∀ id, Place.top = .under id → id < s.nextNode := nofun
  refine added_filled outdated top (populateRepos_known known repos) rfl ?_ ?_ nofun nofun
  · unfold live RepositoryTree.populateRepos
    rw [generation, fetches]
  · rw [populateRepos, shown]
    exact List.Subset.refl _

theorem refreshed_filled (filled : Filled s) (repos : List String) (reopened : Option (List String)) :
    Filled (s.refreshed repos reopened) :=
  List.foldlRecOn _ _ (populateRepos_filled filled repos) fun _ before id _ => onRepoItemExpanded_filled before id

/-- What a disconnect leaves under a node was there, and it ends no worker of a node that
is left. -/
theorem disconnected_filled (filled : Filled s) : Filled s.disconnected := by
  have known := filled.known
  have after := disconnected_known known
  have fewer : (live s.disconnected).Sublist (live s) := by
    let deleted : Fetch → Bool := fun fetch => s.nodes.any fun node => node.id = fetch.parent && s.inTree node
    have only : live s.disconnected = (live s).filter fun fetch => !deleted fetch := by
      have agree : ∀ fetch : Fetch, (fetch.generation = s.generation && !(fetch.orphaned || deleted fetch)) =
          (!deleted fetch && (fetch.generation = s.generation && !fetch.orphaned)) := fun fetch => by
        cases fetch.orphaned <;> cases deleted fetch <;> simp
      unfold live disconnected
      dsimp only
      rw [List.filter_map, List.filter_filter]
      refine (List.map_congr_left fun fetch member => ?_).trans
        ((List.map_id _).trans (List.filter_congr fun fetch _ => ?_))
      · have kept := (List.mem_filter.mp member).2
        simp only [Function.comp_apply, Bool.and_eq_true, Bool.not_eq_true', Bool.or_eq_false_iff] at kept
        rw [kept.2.2, Bool.or_false]
        rfl
      · exact agree fetch
    rw [only]
    exact List.filter_sublist
  refine ⟨after, ?_, ?_⟩
  · refine listed_of filled.listed (List.Subset.refl _) fun node member => .inr (.inr ⟨node, ?_, rfl, rfl, ?_⟩)
    · exact (mem_clear.mp member).1
    · exact kids_clear known member
  · refine queued_of filled.queued fewer (fun fetch member bare => ?_) fun _ _ node member _ =>
      ⟨node, (mem_clear.mp member).1, rfl, rfl⟩
    obtain ⟨node, there, own⟩ := mem_ids.mp (live_mem_ids after member)
    rw [← own] at bare ⊢
    exact (kids_clear known there).trans bare

/-- A repository that is not being listed is listed again. -/
theorem reload_filled (filled : Filled s) {repo : String}
    (idle : ∀ node ∈ s.nodes, node.place = .top → node.data.repo = repo → ∀ fetch ∈ live s, fetch.parent ≠ node.id) :
    Filled (s.reload repo) := by
  unfold reload
  split
  · exact filled
  · rename_i node found
    have there := List.mem_of_find?_eq_some found
    have named := List.find?_some found
    simp only [Bool.and_eq_true, decide_eq_true_eq] at named
    have emptied := takeChildren_filled filled node.id
    have held : ∀ id, Place.under node.id = .under id → id < s.nextNode := by
      rintro id ⟨⟩
      exact filled.known.given node there
    refine onRepoItemExpanded_filled ?_ node.id
    have one : (s.takeChildren node.id).addNodes (.under node.id) [.leaf placeholder] =
        (s.takeChildren node.id).addNode (.under node.id) (.leaf placeholder) := rfl
    refine added_filled emptied held (addNode_known emptied.known held _) (congrArg _ one.symm) rfl
      (List.Subset.refl _) ?_ ?_
    · intro fetch member under
      injection under with same
      exact idle node there named.1 named.2 fetch member same.symm
    · rintro other member under
      refine .inr (.inl ?_)
      injection under with same
      have old := emptied.known.given other member
      change kids ((s.takeChildren node.id).addNode (.under node.id) (.leaf placeholder)) other.id = _
      rw [kids_addNode _ old, kids_takeChildren, if_pos same.symm, if_pos (by rw [same])]
      rfl

/-- A callback puts its listing under its node, where there was nothing. -/
theorem fetched_filled (filled : Filled s) {i : Nat} {fetch : Fetch} (there : s.fetches[i]? = some fetch)
    (listing : Listing) : Filled ({ s with fetches := s.fetches.eraseIdx i }.fetched fetch listing) := by
  have known := filled.known
  have member := List.mem_of_getElem? there
  have erased := erased_known known i
  have left : Filled { s with fetches := s.fetches.eraseIdx i } := by
    refine ⟨erased, filled.listed, queued_of filled.queued ?_ (fun _ _ => id) fun _ _ node here _ =>
      ⟨node, here, rfl, rfl⟩⟩
    exact (List.eraseIdx_sublist ..).filter _
  unfold fetched
  split
  · exact left
  rename_i current
  split
  · split
    · exact ⟨{ erased with }, filled.listed, { left.queued with }⟩
    · rename_i node found
      obtain ⟨inside, own⟩ := mem_of_find? found
      have held : ∀ id, Place.under fetch.parent = .under id → id < s.nextNode := by
        rintro id ⟨⟩
        exact known.parents fetch member
      have grown := addNodes_known (sprouts node.data listing) erased held
      obtain ⟨generation, fetches, -, -⟩ := addNodes_frame (s := { s with fetches := s.fetches.eraseIdx i })
        (.under fetch.parent) (sprouts node.data listing)
      have lives : fetch ∈ live s := by
        refine mem_live.mpr ⟨member, not_not.mp current, ?_⟩
        have lost := known.orphans fetch member (not_not.mp current)
        cases orphaned : fetch.orphaned with
        | false => rfl
        | true => exact absurd (mem_ids.mpr ⟨node, inside, own⟩) (lost.mp orphaned)
      refine added_filled left held { grown with } rfl ?_ (List.subset_append_left _ _) ?_ fun other here under => ?_
      · unfold live
        dsimp only
        rw [generation, fetches]
      · intro other waits under
        injection under with same
        have shared := (List.getElem_cons_eraseIdx_perm (List.getElem?_eq_some_iff.mp there).1).symm
        rw [(List.getElem?_eq_some_iff.mp there).2] at shared
        have apart : (((fetch :: s.fetches.eraseIdx i).filter fun fetch =>
            fetch.generation = s.generation && !fetch.orphaned).map Fetch.parent).Nodup :=
          ((shared.filter _).map _).nodup filled.queued.apart
        rw [List.filter_cons_of_pos (by simpa using (mem_live.mp lives).2), List.map_cons, List.nodup_cons] at apart
        exact apart.1 (same ▸ List.mem_map_of_mem waits)
      · injection under with same
        have whole := node_eq known.once here inside (same.symm.trans own.symm)
        obtain ⟨repo, folder⟩ := filled.queued.own fetch lives node inside own
        have bare := filled.queued.waiting fetch lives
        rw [whole]
        refine .inr
          (.inr ⟨fetch, listing, List.mem_append_right _ (List.mem_singleton_self _), own.symm, repo, folder, ?_⟩)
        refine (kids_addNodes (s := { s with fetches := s.fetches.eraseIdx i }) _ (known.given node inside)).trans ?_
        rw [if_pos (by rw [own]), own]
        exact congrArg (· ++ _) bare
  · exact left

end

/-- A repository is not listed again while it is being listed. -/
def Unhurried (s : RepositoryTree) : Act → Prop
  | .reload repo =>
    ∀ node ∈ s.nodes, node.place = .top → node.data.repo = repo → ∀ fetch ∈ live s, fetch.parent ≠ node.id
  | _ => True

theorem start_filled : Filled {} := ⟨start_known, nofun, nofun, List.nodup_nil, nofun⟩

theorem step_filled {s next : RepositoryTree} {act : Act} (filled : Filled s) (allowed : Unhurried s act)
    (moved : Step s act next) : Filled next := by
  unfold Step step at moved
  cases act with
  | refreshed repos reopened => exact Option.some.inj moved ▸ refreshed_filled filled repos reopened
  | expand id => exact Option.some.inj moved ▸ onRepoItemExpanded_filled filled id
  | disconnected => exact Option.some.inj moved ▸ disconnected_filled filled
  | reload repo => exact Option.some.inj moved ▸ reload_filled filled allowed
  | fetched i opened subfolders items =>
    dsimp only at moved
    split at moved
    · cases moved
    · rename_i fetch there
      exact Option.some.inj moved ▸ fetched_filled filled there _

/-- In every run in which no repository is listed again while it is still being listed,
what is under a node of the panel's tree is nothing, its placeholder, or, once and in
order, what a worker for this node and its own folder has brought back. -/
theorem nodes_show_their_listing {s : RepositoryTree} (reached : Reaches Step Unhurried {} s) :
    ∀ node ∈ s.nodes, Shows s node :=
  (reached.invariant start_filled fun _ _ _ filled allowed moved => step_filled filled allowed moved).listed

theorem listed_folder_shown :
    ∃ s : RepositoryTree, kids s 0 = [{ kind := .folder, text := "bin", repo := "firmware", folder := "/bin/" }] ∧
      ∀ node ∈ s.nodes, Shows s node := by
  let opened : RepositoryTree := ({} : RepositoryTree).refreshed ["firmware"] none
  have filled : Step {} (.refreshed ["firmware"] none) opened := rfl
  let brought : Act := .fetched 0 (.ok ()) (.ok ["bin"]) (.ok [])
  have shows : (opened.step brought).map (kids · 0) =
      some [{ kind := .folder, text := "bin", repo := "firmware", folder := "/bin/" }] := by decide +kernel
  obtain ⟨listed, moved, under⟩ := Option.map_eq_some_iff.mp shows
  have allowed : Unhurried {} (.refreshed ["firmware"] none) ∧ Unhurried opened brought := ⟨trivial, trivial⟩
  exact ⟨listed, under, nodes_show_their_listing (.step (.step .start allowed.1 filled) allowed.2 moved)⟩

end GhidraBridge.TreeContents
