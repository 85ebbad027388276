import GhidraBridge.BridgeSession
import GhidraBridge.Lib.Runs

/-! The streamers of a bridge connection against the repositories its session has
open. The two maps belong to different classes: closing one repository and
disconnecting clear both, but connecting again drops the session alone. -/
namespace GhidraBridge.Streamers
open Lib BridgeState

/-- A request, with what the server answers to its calls, or the end of a streamer. -/
inductive Act where
  | connect (req : Json) (server : GhidraServerAnswers)
  | disconnect
  | openRepo (req : Json) (found : Except String Bool)
  | closeRepo (req : Json)
  | openDb (req : Json) (found : Except String Bool) (exported : Answer)
  | streamerEnds (name : String)

def apply (s : BridgeState) : Act → BridgeState
  | .connect req server => (s.opConnect req server).2
  | .disconnect => s.opDisconnect.2
  | .openRepo req found => (s.opOpenRepo req found).2
  | .closeRepo req => (s.opCloseRepo req).2
  | .openDb req found exported => (s.opOpenDb req found exported).2
  | .streamerEnds name => s.streamerEnds name

def Step (s : BridgeState) (act : Act) (next : BridgeState) : Prop := next = apply s act

/-- Every streamer in the map holds the open handle of its repository. -/
def HandlesCurrent (s : BridgeState) : Prop :=
  ∀ name streamer, s.streamers.lookup name = some streamer → s.openRepos.lookup name = some streamer.repo

/-- The repository is open, and a running streamer waits on its handle. -/
def Watched (s : BridgeState) (name : String) : Prop :=
  ∃ repo, s.openRepos.lookup name = some repo ∧ s.streamers.lookup name = some { repo, running := true }

/-- A connection is made anew only while no streamer is in the map. -/
def Unwatched (s : BridgeState) : Act → Prop
  | .connect req _ => readConnect req ≠ none → ∀ name, name ∉ s.streamers
  | _ => True

/-- Handles are given out once, an open one is not closed and belongs to one
repository, and a streamer in the map waits on the open handle of its own. -/
structure Inv (s : BridgeState) : Prop where
  watched : ∀ name streamer, s.streamers.lookup name = some streamer →
    streamer.running = true ∧ s.openRepos.lookup name = some streamer.repo
  issued : ∀ name repo, s.openRepos.lookup name = some repo → repo < s.nextHandle ∧ repo ∉ s.closed
  used : ∀ repo ∈ s.closed, repo < s.nextHandle
  apart : ∀ name other repo, s.openRepos.lookup name = some repo → s.openRepos.lookup other = some repo →
    name = other

variable {s : BridgeState}

/-- Dropping the session closes every handle; without streamers nobody waits on one. -/
theorem Inv.disconnect (inv : Inv s) (unwatched : ∀ name, name ∉ s.streamers) : Inv s.disconnect where
  watched name streamer held := absurd (AList.lookup_isSome.mp (by rw [show s.streamers.lookup name = _ from held,
    Option.isSome_some])) (unwatched name)
  issued name repo held := by cases held
  used repo member := by
    rcases List.mem_append.mp member with before | dropped
    · exact inv.used repo before
    · obtain ⟨⟨name, held⟩, listed, rfl⟩ := List.mem_map.mp dropped
      exact (inv.issued name held (Table.mem_items.mp listed)).1
  apart name other repo held := by cases held

/-- The handles do not depend on who is connected. -/
theorem Inv.reconnected (inv : Inv s) (serverHandle : Option RepositoryServerHandle)
    (connectedUser : Option String) : Inv { s with serverHandle, connectedUser } :=
  ⟨inv.watched, inv.issued, inv.used, inv.apart⟩

theorem Inv.connect (inv : Inv s) (unwatched : ∀ name, name ∉ s.streamers) (host : String) (port : Int32)
    (user password : String) (server : GhidraServerAnswers) :
    Inv (s.connect host port user password server).2 := by
  have dropped := inv.disconnect unwatched
  unfold BridgeState.connect
  dsimp only
  split
  · exact dropped
  · split
    · exact dropped.reconnected _ _
    · exact dropped.reconnected _ _

/-- A newly opened repository has a handle of its own. -/
theorem Inv.openRepo (inv : Inv s) (name : String) (found : Except String Bool) : Inv (s.openRepo name found).2 := by
  unfold BridgeState.openRepo
  split
  · exact inv
  · split
    · exact inv
    · rename_i missing
      split
      · exact inv
      · exact inv
      · have elsewhere {probe : String} {repo : Nat} (held : s.openRepos.lookup probe = some repo) : probe ≠ name := by
          rintro rfl
          exact missing (AList.lookup_isSome.mp (by rw [held, Option.isSome_some]))
        refine ⟨?_, ?_, ?_, ?_⟩
        · intro probe streamer held
          obtain ⟨running, current⟩ := inv.watched probe streamer held
          exact ⟨running, (Table.lookup_set _ _ _ _).trans ((if_neg (elsewhere current)).trans current)⟩
        · intro probe repo held
          rw [Table.lookup_set] at held
          split at held
          · cases held
            refine ⟨Nat.lt_succ_self _, fun closed => ?_⟩
            exact absurd (inv.used _ closed) (Nat.lt_irrefl _)
          · obtain ⟨old, still⟩ := inv.issued probe repo held
            exact ⟨Nat.lt_succ_of_lt old, still⟩
        · exact fun repo closed => Nat.lt_succ_of_lt (inv.used repo closed)
        · intro first second repo one two
          rw [Table.lookup_set] at one two
          split at one <;> split at two
          · rename_i here there
            exact here.trans there.symm
          · cases one
            exact absurd (inv.issued _ _ two).1 (Nat.lt_irrefl _)
          · cases two
            exact absurd (inv.issued _ _ one).1 (Nat.lt_irrefl _)
          · exact inv.apart first second repo one two

/-- Once a repository is open, it is watched. -/
theorem Inv.startStreamer (inv : Inv s) {name : String} {next : BridgeState}
    (starts : s.startStreamer name = (.ok (), next)) : Inv next ∧ Watched next name := by
  unfold BridgeState.startStreamer at starts
  split at starts
  · rename_i present
    cases starts
    obtain ⟨streamer, held⟩ := Option.isSome_iff_exists.mp (AList.lookup_isSome.mpr present)
    obtain ⟨running, current⟩ := inv.watched name streamer held
    obtain ⟨repo, _⟩ := streamer
    cases running
    exact ⟨inv, repo, current, held⟩
  · unfold BridgeState.getRepo at starts
    cases current : s.openRepos.lookup name with
    | none =>
      rw [current] at starts
      cases starts
    | some repo =>
      rw [current] at starts
      cases starts
      refine ⟨⟨?_, inv.issued, inv.used, inv.apart⟩, repo, current, ?_⟩
      · intro probe streamer held
        rw [Table.lookup_set] at held
        split at held
        · rename_i here
          cases held
          exact ⟨rfl, here ▸ current⟩
        · exact inv.watched probe streamer held
      · exact (Table.lookup_set _ _ _ _).trans (if_pos rfl)

/-- A streamer that cannot be started leaves everything as it is. -/
theorem startStreamer_error {name what : String} {next : BridgeState}
    (fails : s.startStreamer name = (.error what, next)) : next = s := by
  unfold BridgeState.startStreamer at fails
  split at fails
  · cases fails
  · split at fails
    · cases fails
      rfl
    · cases fails

/-- The streamer goes first and its handle is closed after it. -/
theorem Inv.closeRepo (inv : Inv s) (name : String) : Inv ((s.stopStreamer name).closeRepo name) := by
  unfold BridgeState.closeRepo BridgeState.stopStreamer
  dsimp only
  split
  · exact ⟨fun probe streamer held => inv.watched probe streamer (Table.of_lookup_erase held).2, inv.issued,
      inv.used, inv.apart⟩
  · rename_i repo current
    refine ⟨?_, ?_, ?_, ?_⟩
    · intro probe streamer held
      obtain ⟨elsewhere, before⟩ := Table.of_lookup_erase held
      obtain ⟨running, open_⟩ := inv.watched probe streamer before
      exact ⟨running, (Table.lookup_erase_eq _ _ _).trans ((if_neg elsewhere).trans open_)⟩
    · intro probe other held
      obtain ⟨elsewhere, before⟩ := Table.of_lookup_erase held
      obtain ⟨old, still⟩ := inv.issued probe other before
      refine ⟨old, fun closed => ?_⟩
      rcases List.mem_append.mp closed with earlier | now
      · exact still earlier
      · -- two repositories never share a handle
        rw [List.mem_singleton.mp now] at before
        exact elsewhere (inv.apart probe name repo before current)
    · intro other closed
      rcases List.mem_append.mp closed with earlier | now
      · exact inv.used other earlier
      · rw [List.mem_singleton.mp now]
        exact (inv.issued name repo current).1
    · intro first second other one two
      exact inv.apart first second other (Table.of_lookup_erase one).2 (Table.of_lookup_erase two).2

/-- No streamer in the map waits on a closed handle, so none ends by itself. -/
theorem Inv.streamerEnds (inv : Inv s) (name : String) : s.streamerEnds name = s := by
  unfold BridgeState.streamerEnds
  split
  · rfl
  · rename_i streamer held
    obtain ⟨_, current⟩ := inv.watched name streamer held
    exact if_neg (inv.issued name streamer.repo current).2

/-- After a request to open a repository the invariant holds, and if it succeeds the
repository is watched. -/
theorem Inv.opOpenRepo (inv : Inv s) (req : Json) (found : Except String Bool) :
    Inv (s.opOpenRepo req found).2 ∧
      ∀ name, (req.get? "repo").bind Json.getAsString = some name → (s.opOpenRepo req found).1.isOk = true →
        Watched (s.opOpenRepo req found).2 name := by
  unfold BridgeState.opOpenRepo
  split
  · rename_i unread
    refine ⟨inv, fun name read => ?_⟩
    rw [unread] at read
    cases read
  · rename_i name read
    have after := inv.openRepo name found
    split
    · rename_i what next failed
      rw [failed] at after
      exact ⟨after, fun _ _ ok => by cases ok⟩
    · rename_i opened succeeded
      rw [succeeded] at after
      split
      · rename_i what next fails
        rw [startStreamer_error fails]
        exact ⟨after, fun _ _ ok => by cases ok⟩
      · rename_i next starts
        obtain ⟨kept, watched⟩ := after.startStreamer starts
        refine ⟨kept, fun other asked _ => ?_⟩
        rw [read] at asked
        cases asked
        exact watched

theorem inv_step (s : BridgeState) (act : Act) (next : BridgeState) (inv : Inv s) (unwatched : Unwatched s act)
    (taken : Step s act next) : Inv next := by
  subst taken
  cases act with
  | connect req server =>
    rw [apply]
    cases read : readConnect req with
    | none =>
      rw [opConnect_unread read]
      exact inv
    | some parts =>
      obtain ⟨host, port, user, password⟩ := parts
      rw [(opConnect_read read).1]
      exact inv.connect (unwatched (by rw [read]; exact Option.some_ne_none _)) host port user password server
  | disconnect =>
    have stopped : Inv s.stopAllStreamers :=
      ⟨fun name streamer held => (by cases held), inv.issued, inv.used, inv.apart⟩
    exact stopped.disconnect fun name => AList.notMem_empty name
  | openRepo req found => exact (inv.opOpenRepo req found).1
  | closeRepo req =>
    rw [apply, opCloseRepo]
    split
    · exact inv
    · exact inv.closeRepo _
  | openDb req found exported =>
    rw [apply]
    rcases @opOpenDb_state s req found exported with same | ⟨name, opened⟩
    · rw [same]
      exact inv
    · rw [opened]
      exact inv.openRepo name found
  | streamerEnds name =>
    rw [apply, inv.streamerEnds]
    exact inv

/-- Along every run that connects only while no streamer is in the map, each
streamer holds the open handle of its repository, and each repository whose opening
succeeds is watched. -/
theorem open_repositories_watched {s : BridgeState} (reached : Runs.Reaches Step Unwatched {} s) :
    HandlesCurrent s ∧
      ∀ req found name, (req.get? "repo").bind Json.getAsString = some name →
        (s.opOpenRepo req found).1.isOk = true → Watched (s.opOpenRepo req found).2 name := by
  have inv : Inv s := by
    refine reached.invariant ⟨?_, ?_, ?_, ?_⟩ inv_step
    · intro name streamer held
      cases held
    · intro name repo held
      cases held
    · intro repo closed
      cases closed
    · intro name other repo held
      cases held
  exact ⟨fun name streamer held => (inv.watched name streamer held).2,
    fun req found => (inv.opOpenRepo req found).2⟩

def connectRequest : Json :=
  .obj [("op", .str "connect"), ("host", .str "a"), ("port", .int 13100), ("user", .str "user"),
    ("password", .str "secret")]

def repoRequest (op : String) : Json := .obj [("op", .str op), ("repo", .str "r")]

/-- Connect, open the repository, disconnect, connect again: it can be opened and
watched again. -/
theorem reopened_repository_watched :
    let s :=
      apply (apply (apply (apply {} (.connect connectRequest {})) (.openRepo (repoRequest "open_repo") (.ok true)))
        .disconnect) (.connect connectRequest {})
    HandlesCurrent s ∧ Watched (s.opOpenRepo (repoRequest "open_repo") (.ok true)).2 "r" := by
  intro s
  have reached : Runs.Reaches Step Unwatched {} s := by
    refine .step (.step (.step (.step .start ?_ rfl) ?_ rfl) ?_ rfl) ?_ rfl
    · exact fun _ name => AList.notMem_empty name
    · exact trivial
    · exact trivial
    · exact fun _ name => AList.notMem_empty name
  have watched := open_repositories_watched reached
  exact ⟨watched.1, watched.2 (repoRequest "open_repo") (.ok true) "r" rfl (by decide +kernel)⟩

/-- Without the disconnect the streamer of the dropped session stays in the map and
its thread ends. Opening the repository again succeeds and starts no other one. -/
theorem reconnect_leaves_dead_streamer :
    let s :=
      apply (apply (apply (apply {} (.connect connectRequest {})) (.openRepo (repoRequest "open_repo") (.ok true)))
        (.connect connectRequest {})) (.streamerEnds "r")
    Runs.Reaches Step (fun _ _ => True) {} s ∧ ¬HandlesCurrent s ∧
      (s.opOpenRepo (repoRequest "open_repo") (.ok true)).1.isOk = true ∧
      (s.opOpenRepo (repoRequest "open_repo") (.ok true)).2.openRepos.lookup "r" = some 1 ∧
      (s.opOpenRepo (repoRequest "open_repo") (.ok true)).2.streamers.lookup "r" = some ⟨0, false⟩ ∧
      ¬Watched (s.opOpenRepo (repoRequest "open_repo") (.ok true)).2 "r" := by
  intro s
  have reached : Runs.Reaches Step (fun _ _ => True) {} s := by
    refine .step (.step (.step (.step .start ?_ rfl) ?_ rfl) ?_ rfl) ?_ rfl
    all_goals exact trivial
  have dropped : s.openRepos.lookup "r" = none := by decide +kernel
  have left : s.streamers.lookup "r" = some ⟨0, false⟩ := by decide +kernel
  have still : (s.opOpenRepo (repoRequest "open_repo") (.ok true)).2.streamers.lookup "r" = some ⟨0, false⟩ := by
    decide +kernel
  refine ⟨reached, ?_, by decide +kernel, by decide +kernel, still, ?_⟩
  · intro current
    rw [current "r" _ left] at dropped
    cases dropped
  · rintro ⟨repo, _, held⟩
    rw [still] at held
    cases held

end GhidraBridge.Streamers
