import GhidraBridge.ServerCalls
import GhidraBridge.Lib.Runs

/-! The repository tree of the panel (`ProjectPanel.cpp`). A node is filled when it is
first expanded: a worker lists its folder, and a callback puts the listing under the
node it was started for, unless the tree has been filled anew in the meantime. A node
is told apart by a number given out once; children that are taken from their node leave
the tree and are not deleted. -/
namespace GhidraBridge
open Lib ServerCalls

/-- Where a node is: at the top, under another node, or taken out of the tree. -/
inductive Place where
  | top
  | under (id : Nat)
  | taken
  deriving DecidableEq

/-- The kind of a node; a placeholder has none. -/
inductive NodeKind where
  | repo | folder | item | placeholder
  deriving DecidableEq

/-- What a node shows and holds. -/
structure NodeData where
  kind : NodeKind
  text : String
  repo : String := ""
  folder : String := ""
  name : String := ""
  deriving DecidableEq

structure TreeNode where
  id : Nat
  place : Place
  data : NodeData

/-- What a worker of `expandFolder` brings back, with the last error it met. -/
structure Listing where
  subfolders : List String
  items : List RepoItem
  error : String

/-- A listing is shown if there was no error and the folder is not empty. -/
def Listing.shows (listing : Listing) : Bool :=
  listing.error = "" && !(listing.subfolders.isEmpty && listing.items.isEmpty)

/-- A worker of `expandFolder` and its callback. `orphaned` is history: the tree was
cleared with the node in it, by a disconnect. -/
structure Fetch where
  parent : Nat
  repo : String
  folder : String
  generation : Nat
  orphaned : Bool := false
  deriving DecidableEq

/-- The tree, the workers, and what has happened: the listings that were shown, each
with its worker, and the deleted nodes a callback has written to. -/
structure RepositoryTree where
  generation : Nat := 0
  nodes : List TreeNode := []
  nextNode : Nat := 0
  fetches : List Fetch := []
  shown : List (Fetch × Listing) := []
  strayed : List Nat := []

namespace RepositoryTree

def loading : String := "Loading…"

/-- The path a node's children are under. -/
def dirOf (data : NodeData) : String := if data.folder = "" then "/" else data.folder

/-- A node with its children below it. -/
inductive Sprout where
  | leaf (data : NodeData)
  /-- With a placeholder, so that it can be expanded. -/
  | closed (data : NodeData)

def repoNode (name : String) : Sprout := .closed { kind := .repo, text := name, repo := name }

/-- A subfolder under a node. -/
def folderNode (parent : NodeData) (sf : String) : Sprout :=
  .closed { kind := .folder, text := sf, repo := parent.repo, folder := dirOf parent ++ sf ++ "/" }

/-- A folder's item; its own path is the server's. -/
def itemNode (parent : NodeData) (ri : RepoItem) : Sprout :=
  .leaf
    { kind := .item
      text := ri.name ++ if 0 ≤ ri.version then " [v" ++ toString ri.version.toInt ++ "]" else ""
      repo := parent.repo
      folder := ri.parentPath
      name := ri.name }

/-- The children a listing puts under a node. -/
def sprouts (parent : NodeData) (listing : Listing) : List Sprout :=
  listing.subfolders.map (folderNode parent) ++ listing.items.map (itemNode parent)

def Sprout.data : Sprout → NodeData
  | .leaf data | .closed data => data

section
variable (s : RepositoryTree)

/-- A node is made, and its placeholder after it. -/
def addNode (place : Place) : Sprout → RepositoryTree
  | .leaf data => { s with nodes := s.nodes ++ [⟨s.nextNode, place, data⟩], nextNode := s.nextNode + 1 }
  | .closed data =>
    { s with
      nodes := s.nodes ++ [⟨s.nextNode, place, data⟩,
        ⟨s.nextNode + 1, .under s.nextNode, { kind := .placeholder, text := loading }⟩]
      nextNode := s.nextNode + 2 }

def addNodes (place : Place) (all : List Sprout) : RepositoryTree :=
  all.foldl (fun s sprout => s.addNode place sprout) s

def children (id : Nat) : List TreeNode := s.nodes.filter fun node => node.place = .under id

/-- A node is in the tree if a walk up ends at the top. -/
def rooted (nodes : List TreeNode) : Nat → TreeNode → Bool
  | 0, _ => false
  | steps + 1, node =>
    match node.place with
    | .top => true
    | .taken => false
    | .under id =>
      match nodes.find? fun other => other.id = id with
      | none => false
      | some parent => rooted nodes steps parent

def inTree (node : TreeNode) : Bool := rooted s.nodes s.nodes.length node

/-- `clear` deletes the nodes of the tree. -/
def clear : RepositoryTree := { s with nodes := s.nodes.filter fun node => !s.inTree node }

def takeChildren (id : Nat) : RepositoryTree :=
  { s with
    nodes := s.nodes.map fun node => if node.place = .under id then { node with place := .taken } else node }

def expandFolder (parent : Nat) (repo folder : String) : RepositoryTree :=
  { s with fetches := s.fetches ++ [{ parent, repo, folder, generation := s.generation }] }

def onRepoItemExpanded (id : Nat) : RepositoryTree :=
  match s.nodes.find? fun node => node.id = id, s.children id with
  | some node, [child] =>
    if child.data.text = loading then (s.takeChildren id).expandFolder id node.data.repo (dirOf node.data) else s
  | _, _ => s

/-- The nodes at the top for which something holds. -/
def topLevel (keep : TreeNode → Bool) : List Nat :=
  (s.nodes.filter fun node => node.place = .top && keep node).map TreeNode.id

def populateRepos (repos : List String) : RepositoryTree :=
  { s with generation := s.generation + 1 }.clear.addNodes .top (repos.map repoNode)

/-- The callbacks of `onRefreshClicked`, which opens the repositories that were open, and
of `refreshStatus`, which opens all. -/
def refreshed (repos : List String) (reopened : Option (List String)) : RepositoryTree :=
  let filled := s.populateRepos repos
  (filled.topLevel fun node => reopened.elim true fun names => node.data.repo ∈ names).foldl onRepoItemExpanded filled

/-- The callback of an upload lists the repository again. -/
def reload (repo : String) : RepositoryTree :=
  match s.nodes.find? fun node => node.place = .top && node.data.repo = repo with
  | none => s
  | some node =>
    let emptied := (s.takeChildren node.id).addNode (.under node.id) (.leaf { kind := .placeholder, text := loading })
    emptied.onRepoItemExpanded node.id

/-- The callback of a disconnect clears the tree. -/
def disconnected : RepositoryTree :=
  { s.clear with
    fetches := s.fetches.map fun fetch =>
      { fetch with orphaned := fetch.orphaned || s.nodes.any fun node => node.id = fetch.parent && s.inTree node } }

/-- What the worker brings back. An error does not keep it from going on, and the last
one counts. -/
def fetchFolder (opened : Except String Unit) (subfolders : Except String (List String))
    (items : Except String (List RepoItem)) : Listing where
  subfolders := subfolders.toOption.getD []
  items := items.toOption.getD []
  error :=
    match items, subfolders, opened with
    | .error what, _, _ => what
    | .ok _, .error what, _ => what
    | .ok _, .ok _, .error what => what
    | .ok _, .ok _, .ok _ => ""

/-- The callback of `expandFolder`. -/
def fetched (fetch : Fetch) (listing : Listing) : RepositoryTree :=
  if fetch.generation ≠ s.generation then s
  else if listing.shows then
    match s.nodes.find? fun node => node.id = fetch.parent with
    | none => { s with strayed := s.strayed ++ [fetch.parent] }
    | some node =>
      { s.addNodes (.under fetch.parent) (sprouts node.data listing) with shown := s.shown ++ [(fetch, listing)] }
  else s

end

inductive Act where
  | refreshed (repos : List String) (reopened : Option (List String))
  | expand (id : Nat)
  | fetched (i : Nat) (opened : Except String Unit) (subfolders : Except String (List String))
      (items : Except String (List RepoItem))
  | disconnected
  | reload (repo : String)

def step (s : RepositoryTree) : Act → Option RepositoryTree
  | .refreshed repos reopened => some (s.refreshed repos reopened)
  | .expand id => some (s.onRepoItemExpanded id)
  | .fetched i opened subfolders items =>
    match s.fetches[i]? with
    | none => none
    | some fetch =>
      some ({ s with fetches := s.fetches.eraseIdx i }.fetched fetch (fetchFolder opened subfolders items))
  | .disconnected => some s.disconnected
  | .reload repo => some (s.reload repo)

def Step (s : RepositoryTree) (act : Act) (next : RepositoryTree) : Prop := s.step act = some next

end RepositoryTree
end GhidraBridge
