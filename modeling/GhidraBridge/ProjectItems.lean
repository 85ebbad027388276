import GhidraBridge.Lib.Worklist
import GhidraBridge.ServerCalls

/-! The items below a folder, as the flow for a new project finds them
(`createProjectFromNode`): folders are taken from the end of a queue, and each adds its
items to those found and its subfolders to the queue. A call that fails leaves an empty
list, and the loop goes on. -/
namespace GhidraBridge.ProjectItems
open Lib.Worklist Relation ServerCalls

structure RepoItemRef where
  repo : String
  folder : String
  name : String
  deriving DecidableEq

/-- What comes of listing a folder by its path. -/
structure FolderCalls where
  listItems : String → Except String (List RepoItem)
  getSubfolders : String → Except String (List String)

section
variable (calls : FolderCalls) (repo : String)

def itemsIn (f : String) : List RepoItemRef :=
  ((calls.listItems f).toOption.getD []).map fun it => { repo, folder := it.parentPath, name := it.name }

def subfolders (f : String) : List String := (calls.getSubfolders f).toOption.getD []

def childPath (f sf : String) : String := (if f = "/" then "/" else f) ++ sf ++ "/"

/-- The loop, nothing where the fuel is used up. The end of the queue stands first. -/
def collect : Nat → List String → Option (List RepoItemRef)
  | _, [] => some []
  | 0, _ :: _ => none
  | fuel + 1, f :: queue =>
    (collect fuel (((subfolders calls f).map (childPath f)).reverse ++ queue)).map (itemsIn calls repo f ++ ·)

end

/-! ## Folders by their names -/

/-- The path of a folder, from the names that lead to it. -/
def pathOf (start : String) (names : List String) : String := names.foldl childPath start

section
variable (calls : FolderCalls) (start : String)

/-- The folders in a folder. -/
def foldersIn (names : List String) : List (List String) :=
  (subfolders calls (pathOf start names)).map fun sf => names ++ [sf]

/-- Each name is that of a folder in the one before. -/
def IsFolder (names : List String) : Prop :=
  ∀ before sf after, names = before ++ sf :: after → sf ∈ subfolders calls (pathOf start before)

end

variable {calls : FolderCalls} {repo start : String}

theorem pathOf_append (names : List String) (sf : String) :
    pathOf start (names ++ [sf]) = childPath (pathOf start names) sf := List.foldl_append

/-- The loop walks over the folders. -/
theorem collect_eq_walk (fuel : Nat) (queue : List (List String)) :
    collect calls repo fuel (queue.map (pathOf start)) =
      (walk (foldersIn calls start) fuel queue).map fun order =>
        order.flatMap fun names => itemsIn calls repo (pathOf start names) := by
  induction fuel generalizing queue with
  | zero => cases queue <;> rfl
  | succ fuel ih =>
    cases queue with
    | nil => rfl
    | cons names rest =>
      have children : (subfolders calls (pathOf start names)).map (childPath (pathOf start names)) =
          (foldersIn calls start names).map (pathOf start) := by
        rw [foldersIn, List.map_map]
        exact List.map_congr_left fun sf _ => (pathOf_append names sf).symm
      rw [List.map_cons, collect, children, ← List.map_reverse, ← List.map_append, ih, walk]
      cases walk (foldersIn calls start) fuel ((foldersIn calls start names).reverse ++ rest) <;> rfl

theorem isFolder_append {names : List String} {sf : String} :
    IsFolder calls start (names ++ [sf]) ↔
      IsFolder calls start names ∧ sf ∈ subfolders calls (pathOf start names) := by
  constructor
  · intro whole
    refine ⟨fun before name after shape => whole before name (after ++ [sf]) ?_, whole names sf [] rfl⟩
    rw [shape, List.append_assoc]
    rfl
  · rintro ⟨front, last⟩ before name after shape
    rcases List.eq_nil_or_concat after with rfl | ⟨after, end_, rfl⟩
    · obtain ⟨rfl, same⟩ := List.append_inj' shape rfl
      cases same
      exact last
    · refine front before name after ?_
      have cut : names ++ [sf] = (before ++ name :: after) ++ [end_] := by
        rw [shape, List.concat_eq_append, List.append_assoc]
        rfl
      exact (List.append_inj' cut rfl).1

theorem isFolder_nil : IsFolder calls start [] := by
  intro before sf after shape
  cases before <;> cases shape

/-- The folders reached from the start are those with a folder for each name. -/
theorem reached_iff {names : List String} :
    ReflTransGen (Below (foldersIn calls start)) [] names ↔ IsFolder calls start names := by
  constructor
  · intro reached
    induction reached with
    | refl => exact isFolder_nil
    | tail _ right ih =>
      obtain ⟨sf, member, rfl⟩ := List.mem_map.mp right
      exact isFolder_append.mpr ⟨ih, member⟩
  · intro whole
    induction names using List.reverseRecOn with
    | nil => exact .refl
    | append_singleton names sf ih =>
      obtain ⟨front, member⟩ := isFolder_append.mp whole
      exact (ih front).tail (List.mem_map.mpr ⟨sf, member, rfl⟩)

/-- Where folders are nested only so deep, finitely many are below one. -/
theorem finite_of_depth {depth : Nat} (shallow : ∀ names, IsFolder calls start names → names.length ≤ depth)
    {names : List String} (folder : IsFolder calls start names) : Finite (foldersIn calls start) names := by
  obtain ⟨room, size⟩ : ∃ room, depth - names.length = room := ⟨_, rfl⟩
  induction room using Nat.strongRecOn generalizing names with
  | ind room ih =>
    refine Acc.intro _ fun child right => ?_
    obtain ⟨sf, member, rfl⟩ := List.mem_map.mp right
    have next := isFolder_append.mpr ⟨folder, member⟩
    have deep := shallow _ next
    rw [List.length_append, List.length_singleton] at deep
    refine ih (depth - (names ++ [sf]).length) ?_ next rfl
    rw [List.length_append, List.length_singleton]
    omega

theorem folders_treelike (once : ∀ f, (subfolders calls f).Nodup) : Treelike (foldersIn calls start) where
  parent names names' child one two := by
    obtain ⟨sf, -, rfl⟩ := List.mem_map.mp one
    obtain ⟨sf', -, same⟩ := List.mem_map.mp two
    exact (List.append_inj' same rfl).1.symm
  once names := (once _).map fun sf sf' same => by
    have last := (List.append_inj' same rfl).2
    injection last

/-- The loop ends wherever folders are nested only so deep, and it has then listed every
folder below the start, however far, and each once if no folder is in its own twice: what
it has found are the items of these folders. -/
theorem items_found_once {depth : Nat} (shallow : ∀ names, IsFolder calls start names → names.length ≤ depth) :
    ∃ (order : List (List String)) (enough : Nat), (∀ names, names ∈ order ↔ IsFolder calls start names) ∧
      ((∀ f, (subfolders calls f).Nodup) → order.Nodup) ∧
      ∀ fuel, enough ≤ fuel → collect calls repo fuel [start] =
        some (order.flatMap fun names => itemsIn calls repo (pathOf start names)) := by
  have finite := finite_of_depth shallow isFolder_nil
  obtain ⟨enough, order, walked⟩ := walk_ends finite
  refine ⟨order, enough, fun names => ?_, fun once => ?_, fun fuel more => ?_⟩
  · rw [mem_walk walked, ← reached_iff]
    simp
  · exact nodup_walk (folders_treelike once) walked (by simpa using finite) (List.pairwise_singleton _ _)
  · obtain ⟨extra, rfl⟩ := Nat.exists_eq_add_of_le more
    have ran : collect calls repo (enough + extra) [start] = _ :=
      collect_eq_walk (enough + extra) [[]]
    rw [walk_more walked extra] at ran
    exact ran

/-- A repository with an item at the top and one in its folder. -/
def oneFolder : FolderCalls where
  listItems f :=
    .ok
      [{ name := if f = "/" then "loader" else "kernel", parentPath := f, path := f, fileId := "", itemType := 0,
         contentType := "Program", version := 1, versionTime := 0 }]
  getSubfolders f := .ok (if f = "/" then ["bin"] else [])

theorem one_folder_found :
    ∃ (order : List (List String)) (enough : Nat), order.Nodup ∧ ["bin"] ∈ order ∧
      collect oneFolder "firmware" enough ["/"] =
        some (order.flatMap fun names => itemsIn oneFolder "firmware" (pathOf "/" names)) ∧
      itemsIn oneFolder "firmware" (pathOf "/" ["bin"]) = [⟨"firmware", "/bin/", "kernel"⟩] := by
  have shallow : ∀ names, IsFolder oneFolder "/" names → names.length ≤ 1 := by
    intro names folder
    match names with
    | [] => exact Nat.zero_le _
    | [_] => exact Nat.le_refl _
    | first :: second :: rest =>
      have top : first ∈ ["bin"] := folder [] first (second :: rest) rfl
      cases List.mem_singleton.mp top
      have under : second ∈ subfolders oneFolder "/bin/" := folder ["bin"] second rest rfl
      cases under
  have once : ∀ f, (subfolders oneFolder f).Nodup := by
    intro f
    show (if f = "/" then ["bin"] else []).Nodup
    split <;> simp
  obtain ⟨order, enough, all, single, found⟩ := items_found_once shallow
  refine ⟨order, enough, single once, (all _).mpr ?_, found enough (Nat.le_refl _), by decide +kernel⟩
  exact isFolder_append.mpr ⟨isFolder_nil, List.mem_singleton_self _⟩

end GhidraBridge.ProjectItems
