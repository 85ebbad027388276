import Mathlib.Data.List.TakeWhile
import GhidraBridge.BridgeProcess

/-! What the child process leaves behind, over every run of the thread that starts and
stops it, the logger, the child and everybody else: what is open or alive is held by a
member, and a signal or a read goes astray only where the child's end was taken before,
or where the logger outlives its descriptor. -/
namespace GhidraBridge.ProcessLifetime
open Lib Lib.Runs BridgeProcess

/-- The logger goes on, with this number to read from. -/
def Reads (s : BridgeProcess) (fd : Nat) : Prop :=
  s.logger = some (.between fd) ∨ s.logger = some (.reading fd) ∨ s.logger = some (.straying fd)

/-- The members hold what there is of the child. -/
structure Held (s : BridgeProcess) : Prop where
  out : ∀ fd, s.files.lookup fd = some .stdout ↔ s.pipeFd = some fd
  err : ∀ fd, s.files.lookup fd = some .stderr ↔ s.stderrFd = some fd
  child : ∀ pid ended, s.processes.lookup pid = some (.bridge ended) → s.pid = some pid
  untaken : ∀ pid, s.pid = some pid → s.taken = false → ∃ ended, s.processes.lookup pid = some (.bridge ended)
  logs : ∀ fd, Reads s fd →
    s.stderrFd = some fd ∨ (∃ thenLaunch, s.control = .stopping .join thenLaunch) ∧ s.pipeFd ≠ some fd
  bare : s.pid = none → s.pipeFd = none ∧ s.stderrFd = none ∧ s.logger = none
  joining : ∀ thenLaunch, s.control = .stopping .join thenLaunch → s.stderrFd = none
  closing : ∀ thenLaunch, s.control = .stopping .closeOut thenLaunch → s.stderrFd = none ∧ s.logger = none
  reaping : ∀ thenLaunch, s.control = .stopping .reap thenLaunch →
    s.stderrFd = none ∧ s.logger = none ∧ s.pipeFd = none
  launching : s.control = .launching → s.pid = none
  waiting : s.control = .waiting → s.logger = none
  siblings : ∀ pid ∈ s.siblings, s.processes.lookup pid = some .other

section
variable {s next : BridgeProcess}

theorem start_held : Held {} := by
  constructor <;> simp [Reads]

/-- Steps of the others leave the members and the child alone. -/
theorem others_held (held : Held s) {files : Table Nat Opened} {processes : Table Nat Process} {siblings : List Nat}
    (sameFiles : ∀ fd opened, opened ≠ .other → (files.lookup fd = some opened ↔ s.files.lookup fd = some opened))
    (sameProcesses : ∀ pid ended, processes.lookup pid = some (.bridge ended) ↔
      s.processes.lookup pid = some (.bridge ended))
    (others : ∀ pid ∈ siblings, processes.lookup pid = some .other) : Held { s with files, processes, siblings } :=
  { held with
    siblings := others
    out := fun fd => (sameFiles fd .stdout nofun).trans (held.out fd)
    err := fun fd => (sameFiles fd .stderr nofun).trans (held.err fd)
    child := fun pid ended there => held.child pid ended ((sameProcesses pid ended).mp there)
    untaken :=
      fun pid own kept => (held.untaken pid own kept).imp fun ended there => (sameProcesses pid ended).mpr there }

/-- A member that is called or returns, with no logger that has lost its descriptor. -/
theorem control_held (held : Held s) {control : ProcessControl}
    (logs : ∀ fd, Reads s fd → s.stderrFd = some fd)
    (calm : control = .idle ∨ ∃ thenLaunch, control = .stopping .kill thenLaunch) : Held { s with control } := by
  refine { held with
    logs := fun fd alive => .inl (logs fd alive)
    joining := ?_, closing := ?_, reaping := ?_, launching := ?_, waiting := ?_ }
  all_goals rcases calm with rfl | ⟨thenLaunch, rfl⟩ <;> nofun

theorem kill_held (held : Held s) {thenLaunch : Bool} (here : s.control = .stopping .kill thenLaunch) :
    Held { s.kill with control := .stopping .closeErr thenLaunch } := by
  have logs : ∀ fd, Reads s fd → s.stderrFd = some fd :=
    fun fd alive => (held.logs fd alive).resolve_right (by simp [here])
  have same : ∃ strayed, s.kill = { s with strayed } := by
    unfold kill
    split
    · exact ⟨s.strayed, rfl⟩
    · split
      · exact ⟨_, rfl⟩
      · exact ⟨s.strayed, rfl⟩
  obtain ⟨strayed, same⟩ := same
  rw [same]
  exact { held with
    logs := fun fd alive => .inl (logs fd alive)
    joining := nofun, closing := nofun, reaping := nofun, launching := nofun, waiting := nofun }

theorem closeErr_held (held : Held s) {thenLaunch : Bool} (here : s.control = .stopping .closeErr thenLaunch) :
    Held { s.closeErr with control := .stopping .join thenLaunch } := by
  have lost : ∀ fd, Reads s fd → s.pipeFd ≠ some fd := by
    intro fd alive shared
    have own := (held.logs fd alive).resolve_right (by simp [here])
    have stdout := (held.out fd).mpr shared
    rw [(held.err fd).mpr own] at stdout
    cases stdout
  unfold closeErr
  split
  · rename_i closed
    exact { held with
      logs := fun fd alive => .inr ⟨⟨thenLaunch, rfl⟩, lost fd alive⟩
      joining := fun _ _ => closed
      closing := nofun, reaping := nofun, launching := nofun, waiting := nofun }
  · rename_i fd opened
    have own : s.files.lookup fd = some .stderr := (held.err fd).mpr opened
    exact { held with
      out := fun other => by
        rw [Table.lookup_erase_eq, ← held.out other]
        grind
      err := fun other => by
        rw [Table.lookup_erase_eq]
        have := held.err other
        grind
      logs := fun fd alive => .inr ⟨⟨thenLaunch, rfl⟩, lost fd alive⟩
      bare := fun gone => ⟨(held.bare gone).1, rfl, (held.bare gone).2.2⟩
      joining := fun _ _ => rfl
      closing := nofun, reaping := nofun, launching := nofun, waiting := nofun }

theorem join_held (held : Held s) {thenLaunch : Bool} (here : s.control = .stopping .join thenLaunch)
    {joined : BridgeProcess} (done : s.join = some joined) :
    Held { joined with control := .stopping .closeOut thenLaunch } := by
  have closed := held.joining thenLaunch here
  unfold join at done
  split at done
  · rename_i none
    cases done
    exact { held with
      logs := fun fd alive => by simp [Reads, none] at alive
      joining := nofun, closing := fun _ _ => ⟨closed, none⟩, reaping := nofun, launching := nofun, waiting := nofun }
  · cases done
    exact { held with
      logs := fun fd alive => by simp [Reads] at alive
      bare := fun gone => ⟨(held.bare gone).1, closed, rfl⟩
      joining := nofun, closing := fun _ _ => ⟨closed, rfl⟩, reaping := nofun, launching := nofun, waiting := nofun }
  · cases done

theorem closeOut_held (held : Held s) {thenLaunch : Bool} (here : s.control = .stopping .closeOut thenLaunch) :
    Held { s.closeOut with control := .stopping .reap thenLaunch } := by
  obtain ⟨closed, none⟩ := held.closing thenLaunch here
  unfold closeOut
  split
  · rename_i shut
    exact { held with
      logs := fun fd alive => by simp [Reads, none] at alive
      joining := nofun, closing := nofun, reaping := fun _ _ => ⟨closed, none, shut⟩, launching := nofun
      waiting := nofun }
  · rename_i fd opened
    have own : s.files.lookup fd = some .stdout := (held.out fd).mpr opened
    exact { held with
      out := fun other => by
        rw [Table.lookup_erase_eq]
        have := held.out other
        grind
      err := fun other => by
        rw [Table.lookup_erase_eq, ← held.err other]
        grind
      logs := fun fd alive => by simp [Reads, none] at alive
      bare := fun gone => ⟨rfl, closed, none⟩
      joining := nofun, closing := nofun, reaping := fun _ _ => ⟨closed, none, rfl⟩, launching := nofun
      waiting := nofun }

/-- What is waited for is gone. -/
theorem reap_gone (held : Held s) {reaped : BridgeProcess} (done : s.reap = some reaped) :
    ∃ processes, reaped = { s with processes, pid := none } ∧
      (∀ pid ended, processes.lookup pid ≠ some (.bridge ended)) ∧
        ∀ pid ∈ s.siblings, processes.lookup pid = some .other := by
  have only := held.child
  have others := held.siblings
  unfold reap at done
  split at done
  · rename_i never
    cases done
    exact ⟨s.processes, by rw [← never], fun pid ended there => (by grind), others⟩
  · rename_i pid own
    split at done
    · cases done
    · rename_i ended
      cases done
      refine ⟨s.processes.erase pid, rfl, fun other ended there => ?_, fun other sibling => ?_⟩
      · obtain ⟨apart, there⟩ := Table.of_lookup_erase there
        grind
      · rw [Table.lookup_erase_eq]
        grind
    · rename_i apart ended
      obtain ⟨-, did⟩ := Option.ite_none_left_eq_some.mp done
      cases did
      refine ⟨s.processes, rfl, fun other ended there => ?_, others⟩
      cases ended <;> grind

theorem reap_held (held : Held s) {thenLaunch : Bool} (here : s.control = .stopping .reap thenLaunch)
    {reaped : BridgeProcess} (done : s.reap = some reaped) :
    Held { reaped with port := -1, control := if thenLaunch then .launching else .idle } := by
  obtain ⟨closed, none, shut⟩ := held.reaping thenLaunch here
  obtain ⟨processes, rfl, gone, others⟩ := reap_gone held done
  have control : ∀ stage thenLaunch', (if thenLaunch then ProcessControl.launching else .idle) ≠
      .stopping stage thenLaunch' := by
    cases thenLaunch <;> nofun
  exact
    { out := held.out
      err := held.err
      child := fun pid ended there => absurd there (gone pid ended)
      untaken := nofun
      logs := fun fd alive => by simp [Reads, none] at alive
      bare := fun _ => ⟨shut, closed, none⟩
      joining := fun other here => absurd here (control _ other)
      closing := fun other here => absurd here (control _ other)
      reaping := fun other here => absurd here (control _ other)
      launching := fun _ => rfl
      waiting := fun _ => none
      siblings := others }

theorem launch_held (held : Held s) (here : s.control = .launching) {outcome : Launch}
    (done : s.launch outcome = some next) : Held next := by
  have gone := held.launching here
  obtain ⟨shut, closed, none⟩ := held.bare gone
  cases outcome with
  | failed =>
    cases done
    exact control_held held (fun fd alive => by simp [Reads, none] at alive) (.inl rfl)
  | forked pid out err =>
    dsimp only [launch] at done
    split at done
    · rename_i free
      obtain ⟨freePid, freeOut, freeErr, apart⟩ := free
      cases done
      have noOut := held.out
      have noErr := held.err
      have noChild := held.child
      refine ⟨fun fd => ?_, fun fd => ?_, fun other ended there => ?_, fun other own _ => ?_,
        fun fd alive => ?_, ?_, nofun,
        nofun, nofun, nofun, fun _ => none, fun other sibling => ?_⟩
      · dsimp only
        rw [Table.lookup_set, Table.lookup_set]
        grind
      · dsimp only
        rw [Table.lookup_set, Table.lookup_set]
        grind
      · dsimp only at there
        rw [Table.lookup_set] at there
        grind
      · cases own
        exact ⟨false, by rw [Table.lookup_set, if_pos rfl]⟩
      · simp [Reads, none] at alive
      · nofun
      · have others := held.siblings other sibling
        dsimp only
        rw [Table.lookup_set]
        grind
    · cases done

theorem readReady_held (held : Held s) (here : s.control = .waiting) (printed : List Char) :
    Held (s.readReady printed) := by
  have none := held.waiting here
  have quiet : ∀ fd, Reads s fd → s.stderrFd = some fd :=
    fun fd alive => by simp [Reads, none] at alive
  unfold readReady
  split
  · unfold startStderrLogger
    dsimp only
    split
    · have calm := control_held held quiet (.inl rfl)
      exact { calm with }
    · rename_i fd opened
      exact { held with
        logs := fun other alive => .inl (by simp [Reads] at alive; rw [opened, alive])
        bare := fun gone => by simp [(held.bare gone).2.1] at opened
        joining := nofun, closing := nofun, reaping := nofun, launching := nofun, waiting := nofun }
  · exact control_held held quiet (.inr ⟨false, rfl⟩)
  · exact control_held held quiet (.inl rfl)

theorem isRunning_held (held : Held s) : Held s.isRunning.2 := by
  unfold isRunning
  split
  · exact held
  · rename_i pid own
    split
    · exact held
    · have only := held.child
      exact { held with
        child := fun other ended there => held.child other ended (Table.of_lookup_erase there).2
        untaken := nofun
        siblings := fun other sibling => by
          have others := held.siblings other sibling
          dsimp only
          rw [Table.lookup_erase_eq]
          grind }
    · exact held


theorem call_held (held : Held s) (here : s.control = .idle) (thenLaunch : Bool) :
    Held { s with control := .stopping .kill thenLaunch } :=
  control_held held (fun fd alive => (held.logs fd alive).resolve_right (by simp [here])) (.inr ⟨thenLaunch, rfl⟩)

theorem nextStage_held (held : Held s) {stage : StopStage} {thenLaunch : Bool}
    (here : s.control = .stopping stage thenLaunch) (done : s.nextStage thenLaunch stage = some next) : Held next := by
  cases stage with
  | kill =>
    cases done
    exact kill_held held here
  | closeErr =>
    cases done
    exact closeErr_held held here
  | join =>
    obtain ⟨joined, did, rfl⟩ := Option.map_eq_some_iff.mp done
    exact join_held held here did
  | closeOut =>
    cases done
    exact closeOut_held held here
  | reap =>
    obtain ⟨reaped, did, rfl⟩ := Option.map_eq_some_iff.mp done
    exact reap_held held here did

/-- The logger is the thread of one start until it is joined. -/
theorem logger_held (held : Held s) {fd : Nat} (alive : Reads s fd)
    {logger : Logger} {misread : List Nat}
    (same : logger = .between fd ∨ logger = .reading fd ∨ logger = .straying fd ∨ logger = .ended) :
    Held { s with logger := some logger, misread } := by
  have some_ : s.logger ≠ none := by rcases alive with here | here | here <;> simp [here]
  refine { held with
    logs := fun other alive' => ?_
    bare := fun gone => absurd (held.bare gone).2.2 some_
    closing := fun t here => absurd (held.closing t here).2 some_
    reaping := fun t here => absurd (held.reaping t here).2.1 some_
    waiting := fun here => absurd (held.waiting here) some_ }
  have own : other = fd := by
    rcases same with rfl | rfl | rfl | rfl <;> simp [Reads] at alive' <;> exact alive'.symm
  rw [own]
  exact held.logs fd alive

theorem goesOn_held (held : Held s) {fd : Nat} (alive : Reads s fd) (something : Bool) :
    Held (s.loggerGoesOn fd something) := by
  unfold loggerGoesOn
  cases something with
  | false => exact logger_held held alive (.inr (.inr (.inr rfl)))
  | true => exact logger_held held alive (.inl rfl)

theorem step_held {act : Act} (held : Held s) (moved : Step s act next) : Held next := by
  unfold Step step at moved
  cases act with
  | start =>
    obtain ⟨here, did⟩ := Option.ite_none_right_eq_some.mp moved
    cases did
    exact call_held held here true
  | stop =>
    obtain ⟨here, did⟩ := Option.ite_none_right_eq_some.mp moved
    cases did
    exact call_held held here false
  | next =>
    dsimp only at moved
    split at moved
    · rename_i stage thenLaunch here
      exact nextStage_held held here moved
    · cases moved
  | launch outcome =>
    obtain ⟨here, did⟩ := Option.ite_none_right_eq_some.mp moved
    exact launch_held held here did
  | readReady printed =>
    obtain ⟨here, did⟩ := Option.ite_none_right_eq_some.mp moved
    cases did
    exact readReady_held held here printed
  | isRunning =>
    cases moved
    exact isRunning_held held
  | childEnds =>
    dsimp only at moved
    split at moved
    · rename_i pid own
      obtain ⟨alive, did⟩ := Option.ite_none_right_eq_some.mp moved
      cases did
      have only := held.child
      exact { held with
        child := fun other ended there => by
          dsimp only at there
          rw [Table.lookup_set] at there
          grind
        untaken := fun other own' kept => by
          obtain ⟨ended, there⟩ := held.untaken other own' kept
          dsimp only
          rw [Table.lookup_set]
          split
          · exact ⟨true, rfl⟩
          · exact ⟨ended, there⟩
        siblings := fun other sibling => by
          have others := held.siblings other sibling
          dsimp only
          rw [Table.lookup_set]
          grind }
    · cases moved
  | loggerReads =>
    dsimp only at moved
    split at moved
    · rename_i fd alive
      cases moved
      unfold loggerReads
      split
      · exact logger_held held (.inl alive) (.inr (.inr (.inr rfl)))
      · exact logger_held held (.inl alive) (.inr (.inl rfl))
      · exact logger_held held (.inl alive) (.inr (.inr (.inl rfl)))
    · cases moved
  | loggerGets something =>
    dsimp only at moved
    split at moved
    · rename_i fd alive
      obtain ⟨-, did⟩ := Option.ite_none_left_eq_some.mp moved
      cases did
      exact goesOn_held held (.inr (.inl alive)) something
    · cases moved
  | loggerFails =>
    dsimp only at moved
    split at moved
    · rename_i fd alive
      cases moved
      exact goesOn_held held (.inr (.inl alive)) false
    · rename_i fd alive
      cases moved
      exact goesOn_held held (.inr (.inr alive)) false
    · cases moved
  | loggerStrays something =>
    dsimp only at moved
    split at moved
    · rename_i fd alive
      cases moved
      exact goesOn_held held (.inr (.inr alive)) something
    · cases moved
  | opens fd =>
    obtain ⟨free, did⟩ := Option.ite_none_right_eq_some.mp moved
    cases did
    refine others_held held (fun other opened own => ?_) (fun _ _ => Iff.rfl) held.siblings
    rw [Table.lookup_set]
    grind
  | closes fd =>
    obtain ⟨there, did⟩ := Option.ite_none_right_eq_some.mp moved
    cases did
    refine others_held held (fun other opened own => ?_) (fun _ _ => Iff.rfl) held.siblings
    rw [Table.lookup_erase_eq]
    grind
  | spawns pid ours =>
    obtain ⟨free, did⟩ := Option.ite_none_right_eq_some.mp moved
    cases did
    refine others_held held (fun _ _ _ => Iff.rfl) (fun other ended => ?_) fun other sibling => ?_
    · rw [Table.lookup_set]
      grind
    · have others := held.siblings other
      rw [Table.lookup_set]
      grind
  | dies pid =>
    obtain ⟨there, did⟩ := Option.ite_none_right_eq_some.mp moved
    cases did
    refine others_held held (fun _ _ _ => Iff.rfl) (fun other ended => ?_) fun other sibling => ?_
    · rw [Table.lookup_erase_eq]
      grind
    · obtain ⟨kept, apart⟩ := List.mem_filter.mp sibling
      rw [Table.lookup_erase_eq, if_neg (by simpa using apart)]
      exact held.siblings other kept

theorem reached_held {guard : BridgeProcess → Act → Prop} (reached : Reaches Step guard {} s) : Held s :=
  reached.invariant start_held fun _ _ _ held _ moved => step_held held moved

theorem logger_not_stdout (held : Held s) {fd : Nat} (alive : s.logger = some (.between fd)) :
    s.files.lookup fd ≠ some .stdout := fun there => by
  rcases held.logs fd (.inl alive) with own | ⟨-, apart⟩
  · rw [(held.err fd).mpr own] at there
    cases there
  · exact apart ((held.out fd).mp there)

/-! ## What goes astray -/

theorem kill_strayed :
    s.kill.strayed ≠ s.strayed ↔ ∃ pid, s.pid = some pid ∧ s.processes.lookup pid = some .other := by
  unfold kill
  split
  · rename_i none
    simp [none]
  · rename_i pid own
    split <;> simp_all

theorem nextStage_misread {stage : StopStage} {thenLaunch : Bool} (done : s.nextStage thenLaunch stage = some next) :
    next.misread = s.misread := by
  cases stage with
  | kill =>
    cases done
    unfold kill
    grind
  | closeErr =>
    cases done
    unfold closeErr
    grind
  | join =>
    obtain ⟨joined, did, rfl⟩ := Option.map_eq_some_iff.mp done
    unfold join at did
    grind
  | closeOut =>
    cases done
    unfold closeOut
    grind
  | reap =>
    obtain ⟨reaped, did, rfl⟩ := Option.map_eq_some_iff.mp done
    unfold reap at did
    grind

theorem nextStage_strayed {stage : StopStage} {thenLaunch : Bool} (done : s.nextStage thenLaunch stage = some next) :
    next.strayed ≠ s.strayed ↔
      stage = .kill ∧ ∃ pid, s.pid = some pid ∧ s.processes.lookup pid = some .other := by
  cases stage with
  | kill =>
    cases done
    rw [eq_self, true_and]
    exact kill_strayed
  | closeErr =>
    cases done
    unfold closeErr
    grind
  | join =>
    obtain ⟨joined, did, rfl⟩ := Option.map_eq_some_iff.mp done
    unfold join at did
    grind
  | closeOut =>
    cases done
    unfold closeOut
    grind
  | reap =>
    obtain ⟨reaped, did, rfl⟩ := Option.map_eq_some_iff.mp done
    unfold reap at did
    grind

theorem loggerReads_misread (fd : Nat) :
    (s.loggerReads fd).misread ≠ s.misread ↔ ∃ opened, s.files.lookup fd = some opened ∧ opened ≠ .stderr := by
  unfold loggerReads
  split <;> simp_all

/-- The steps that are neither a stage of `stop` nor a read of the logger. -/
theorem step_quiet {act : Act} (moved : Step s act next) (apart : act ≠ .next ∧ act ≠ .loggerReads) :
    next.strayed = s.strayed ∧ next.misread = s.misread := by
  unfold Step step at moved
  cases act with
  | next => exact absurd rfl apart.1
  | loggerReads => exact absurd rfl apart.2
  | launch outcome =>
    obtain ⟨-, did⟩ := Option.ite_none_right_eq_some.mp moved
    cases outcome <;> simp only [launch] at did <;> grind
  | readReady printed =>
    obtain ⟨-, did⟩ := Option.ite_none_right_eq_some.mp moved
    cases did
    unfold readReady startStderrLogger
    grind
  | isRunning =>
    cases moved
    unfold isRunning
    grind
  | loggerGets | loggerFails | loggerStrays =>
    unfold loggerGoesOn at moved
    grind
  | start | stop | childEnds | opens | closes | spawns | dies => grind

end

/-- In every run, the descriptors and the process that a start has made are those its
members name, so none is lost and none is closed twice, and when `stop` ends there is no
descriptor, no process and no logger left. -/
theorem nothing_outlives_stop {s : BridgeProcess} (reached : Reaches Step (fun _ _ => True) {} s) :
    (∀ fd, s.files.lookup fd = some .stdout ↔ s.pipeFd = some fd) ∧
      (∀ fd, s.files.lookup fd = some .stderr ↔ s.stderrFd = some fd) ∧
      (∀ pid ended, s.processes.lookup pid = some (.bridge ended) → s.pid = some pid) ∧
      ∀ next thenLaunch, s.control = .stopping .reap thenLaunch → Step s .next next →
        next.pid = none ∧ next.pipeFd = none ∧ next.stderrFd = none ∧ next.logger = none := by
  have held := reached_held reached
  refine ⟨held.out, held.err, held.child, fun next thenLaunch here moved => ?_⟩
  have after := step_held held moved
  have gone : next.pid = none := by
    unfold Step step at moved
    rw [here] at moved
    obtain ⟨reaped, did, rfl⟩ := Option.map_eq_some_iff.mp moved
    obtain ⟨processes, rfl, -⟩ := reap_gone held did
    rfl
  exact ⟨gone, after.bare gone⟩

/-- A bridge that is started, ends and is stopped, after `isRunning` has seen its end and
its number was given away. -/
def endedActs : List Act :=
  [.start, .next, .next, .next, .next, .next, .launch (.forked 7 3 4), .readReady "READY port=9\n".toList, .childEnds,
    .isRunning, .spawns 7 false, .stop]

theorem ended_reached {s : BridgeProcess} (ran : endedActs.foldlM step {} = some s) :
    Reaches Step (fun _ _ => True) {} s := Reaches.foldlM .start (fun _ _ _ => trivial) ran

theorem stopped_bridge_gone :
    ∃ s next, Step s .next next ∧ s.pid = some 7 ∧ next.pid = none ∧ next.pipeFd = none ∧ next.stderrFd = none ∧
      next.logger = none := by
  let acts : List Act := endedActs ++ [.loggerReads, .loggerGets false, .next, .next, .next, .next]
  have seen : (acts.foldlM step {}).map (fun s => (s.control, s.pid, (s.step .next).isSome)) =
      some (.stopping .reap false, some 7, true) := by decide +kernel
  obtain ⟨s, ran, facts⟩ := Option.map_eq_some_iff.mp seen
  simp only [Prod.mk.injEq] at facts
  obtain ⟨control, pid, goes⟩ := facts
  obtain ⟨next, moved⟩ := Option.isSome_iff_exists.mp goes
  have reached : Reaches Step (fun _ _ => True) {} s := Reaches.foldlM .start (fun _ _ _ => trivial) ran
  exact ⟨s, next, moved, pid, (nothing_outlives_stop reached).2.2.2 next false control moved⟩

/-- In every run, `stop` signals a process that is not the child exactly where `isRunning`
has taken the child's end before and its number belongs to another process by now; and
the logger reads from a descriptor that is not its own exactly where `stop` has closed its
own and the number belongs to another file before it is joined. -/
theorem astray_after_end {s next : BridgeProcess} {act : Act} (reached : Reaches Step (fun _ _ => True) {} s)
    (moved : Step s act next) :
    (next.strayed ≠ s.strayed ↔
      act = .next ∧ (∃ thenLaunch, s.control = .stopping .kill thenLaunch) ∧ s.taken = true ∧
        ∃ pid, s.pid = some pid ∧ s.processes.lookup pid = some .other) ∧
    (next.misread ≠ s.misread ↔
      act = .loggerReads ∧ (∃ thenLaunch, s.control = .stopping .join thenLaunch) ∧
        ∃ fd, s.logger = some (.between fd) ∧ s.files.lookup fd = some .other) := by
  have held := reached_held reached
  by_cases stage : act = .next
  · subst stage
    unfold Step step at moved
    dsimp only at moved
    split at moved
    · rename_i stage thenLaunch here
      refine ⟨?_, iff_of_false (not_not.mpr (nextStage_misread moved)) nofun⟩
      rw [nextStage_strayed moved, here]
      constructor
      · rintro ⟨rfl, pid, own, foreign⟩
        refine ⟨rfl, ⟨thenLaunch, rfl⟩, ?_, pid, own, foreign⟩
        by_contra kept
        obtain ⟨ended, there⟩ := held.untaken pid own (by simpa using kept)
        rw [foreign] at there
        cases there
      · rintro ⟨-, ⟨_, same⟩, -, found⟩
        exact ⟨by injection same, found⟩
    · cases moved
  · by_cases reads : act = .loggerReads
    · subst reads
      unfold Step step at moved
      dsimp only at moved
      split at moved
      · rename_i fd alive
        cases moved
        have silent : (s.loggerReads fd).strayed = s.strayed := by
          unfold loggerReads
          grind
        refine ⟨iff_of_false (not_not.mpr silent) nofun, ?_⟩
        rw [loggerReads_misread, alive]
        constructor
        · rintro ⟨opened, there, apart⟩
          have lost : s.stderrFd ≠ some fd := fun own => by
            rw [(held.err fd).mpr own] at there
            exact apart (Option.some.inj there).symm
          obtain ⟨joining, -⟩ := (held.logs fd (.inl alive)).resolve_left lost
          refine ⟨rfl, joining, fd, rfl, ?_⟩
          cases opened with
          | stdout => exact absurd there (logger_not_stdout held alive)
          | stderr => exact absurd rfl apart
          | other => exact there
        · rintro ⟨-, -, other, same, there⟩
          cases same
          exact ⟨.other, there, nofun⟩
      · cases moved
    · obtain ⟨strayed, misread⟩ := step_quiet moved ⟨stage, reads⟩
      exact ⟨iff_of_false (not_not.mpr strayed) fun found => stage found.1,
        iff_of_false (not_not.mpr misread) fun found => reads found.1⟩

theorem given_number_signalled : ∃ s next, Step s .next next ∧ next.strayed ≠ s.strayed := by
  have seen : (endedActs.foldlM step {}).map (fun s =>
      (s.control, s.taken, s.pid, s.processes.lookup 7, (s.step .next).isSome)) =
      some (.stopping .kill false, true, some 7, some .other, true) := by decide +kernel
  obtain ⟨s, ran, facts⟩ := Option.map_eq_some_iff.mp seen
  simp only [Prod.mk.injEq] at facts
  obtain ⟨control, taken, pid, foreign, goes⟩ := facts
  obtain ⟨next, moved⟩ := Option.isSome_iff_exists.mp goes
  exact ⟨s, next, moved, ((astray_after_end (ended_reached ran) moved).1.mpr
    ⟨rfl, ⟨false, control⟩, taken, 7, pid, foreign⟩)⟩

/-! ## The end of a stop -/

/-- The thread can go on by itself, the logger helping, until its stop is done. -/
def Ends (thenLaunch : Bool) (s : BridgeProcess) : Prop :=
  ∃ (acts : List Act) (next : BridgeProcess), acts.foldlM step s = some next ∧
    (∀ act ∈ acts, act = .next ∨ act = .loggerReads ∨ act = .loggerGets false) ∧
    next.control = if thenLaunch then .launching else .idle

/-- What neither the thread in a stop nor the logger can bring to an end: the child is
alive, its number is that of another child of the plugin, or the logger is in a read of
another file or about to be. -/
inductive Hindered (s : BridgeProcess) : Prop
  | alive (alive : s.childAlive = true)
  | sibling {pid : Nat} (own : s.pid = some pid) (given : pid ∈ s.siblings)
  | shared {fd : Nat} (reads : s.logger = some (.between fd)) (given : s.files.lookup fd = some .other)
  | straying {fd : Nat} (reads : s.logger = some (.straying fd))

section
variable {s next : BridgeProcess} {thenLaunch : Bool}

/-- The child has ended, and `waitpid` comes back. -/
def Reapable (s : BridgeProcess) : Prop :=
  ∀ pid, s.pid = some pid → s.processes.lookup pid ≠ some (.bridge false) ∧ pid ∉ s.siblings

theorem reapable_of_unhindered (unhindered : ¬Hindered s) : Reapable s := by
  refine fun pid own => ⟨fun alive => unhindered (.alive ?_), fun given => unhindered (.sibling own given)⟩
  rw [childAlive, own]
  exact decide_eq_true alive

theorem not_childAlive (reaps : Reapable s) : s.childAlive = false := by
  unfold childAlive
  split
  · rfl
  · exact decide_eq_false (reaps _ ‹_›).1

theorem ends_step {act : Act} (taken : s.step act = some next)
    (own : act = .next ∨ act = .loggerReads ∨ act = .loggerGets false) (ends : Ends thenLaunch next) :
    Ends thenLaunch s := by
  obtain ⟨acts, last, ran, allowed, done⟩ := ends
  refine ⟨act :: acts, last, ?_, ?_, done⟩
  · rw [List.foldlM_cons, taken]
    exact ran
  · rintro other (_ | ⟨_, later⟩)
    · exact own
    · exact allowed other later

theorem step_next {stage : StopStage} (here : s.control = .stopping stage thenLaunch) :
    s.step .next = s.nextStage thenLaunch stage := by
  unfold step
  rw [here]

theorem reap_ends (here : s.control = .stopping .reap thenLaunch) (reaps : Reapable s) : Ends thenLaunch s := by
  have done : ∃ reaped, s.reap = some reaped := by
    unfold reap
    split
    · exact ⟨_, rfl⟩
    · rename_i pid own
      obtain ⟨ended, apart⟩ := reaps pid own
      split
      · rename_i alive
        exact absurd alive ended
      · exact ⟨_, rfl⟩
      · exact ⟨_, if_neg apart⟩
  obtain ⟨reaped, did⟩ := done
  have taken := (step_next here).trans (congrArg (Option.map _) did)
  exact ends_step taken (.inl rfl) ⟨[], _, rfl, nofun, rfl⟩

theorem closeOut_ends (here : s.control = .stopping .closeOut thenLaunch) (reaps : Reapable s) : Ends thenLaunch s := by
  refine ends_step (step_next here) (.inl rfl) (reap_ends rfl ?_)
  unfold closeOut
  split <;> exact reaps

theorem join_ends (here : s.control = .stopping .join thenLaunch) (reaps : Reapable s)
    (quiet : s.logger = none ∨ s.logger = some .ended) : Ends thenLaunch s := by
  have joins : ∃ logger, s.join = some { s with logger } := by
    unfold join
    rcases quiet with none | ended
    · refine ⟨s.logger, ?_⟩
      simp only [none]
      rw [← none]
    · exact ⟨none, by rw [ended]⟩
  obtain ⟨logger, did⟩ := joins
  have taken := (step_next here).trans (congrArg (Option.map _) did)
  exact ends_step taken (.inl rfl) (closeOut_ends rfl reaps)

theorem closeErr_ends (here : s.control = .stopping .closeErr thenLaunch) (reaps : Reapable s)
    (quiet : s.logger = none ∨ s.logger = some .ended) : Ends thenLaunch s := by
  refine ends_step (step_next here) (.inl rfl) (join_ends rfl ?_ ?_)
  all_goals
    unfold closeErr
    split
  · exact reaps
  · exact reaps
  · exact quiet
  · exact quiet

theorem kill_ends (here : s.control = .stopping .kill thenLaunch) (reaps : Reapable s)
    (quiet : s.logger = none ∨ s.logger = some .ended) : Ends thenLaunch s := by
  refine ends_step (step_next here) (.inl rfl) (closeErr_ends rfl ?_ ?_)
  all_goals
    unfold kill
    split
  · exact reaps
  · split <;> exact reaps
  · exact quiet
  · split <;> exact quiet

/-- Whatever stage the stop is in, it can end once the logger has. -/
theorem stage_ends {stage : StopStage} (here : s.control = .stopping stage thenLaunch) (reaps : Reapable s)
    (quiet : s.logger = none ∨ s.logger = some .ended) : Ends thenLaunch s := by
  cases stage with
  | kill => exact kill_ends here reaps quiet
  | closeErr => exact closeErr_ends here reaps quiet
  | join => exact join_ends here reaps quiet
  | closeOut => exact closeOut_ends here reaps
  | reap => exact reap_ends here reaps

/-- The end of the child is the end of its stderr. -/
theorem reading_ends {stage : StopStage} {fd : Nat} (here : s.control = .stopping stage thenLaunch) (reaps : Reapable s)
    (alive : s.logger = some (.reading fd)) : Ends thenLaunch s := by
  have taken : s.step (.loggerGets false) = some { s with logger := some .ended } := by
    unfold step
    rw [alive]
    dsimp only
    rw [not_childAlive reaps]
    rfl
  exact ends_step taken (.inr (.inr rfl)) (stage_ends here reaps (.inr rfl))

/-! What hinders a stop stays, whatever the thread and the logger do. -/

theorem Hindered.kill (hindered : Hindered s) (control : ProcessControl) : Hindered { s.kill with control } := by
  have same : ∃ strayed, s.kill = { s with strayed } := by
    unfold BridgeProcess.kill
    split
    · exact ⟨s.strayed, rfl⟩
    · split
      · exact ⟨_, rfl⟩
      · exact ⟨s.strayed, rfl⟩
  obtain ⟨strayed, same⟩ := same
  rw [same]
  cases hindered with
  | alive alive => exact .alive alive
  | sibling own given => exact .sibling own given
  | shared reads given => exact .shared reads given
  | straying reads => exact .straying reads

theorem Hindered.closeErr (hindered : Hindered s) (held : Held s) (control : ProcessControl) :
    Hindered { s.closeErr with control } := by
  unfold BridgeProcess.closeErr
  split
  · cases hindered with
    | alive alive => exact .alive alive
    | sibling own given => exact .sibling own given
    | shared reads given => exact .shared reads given
    | straying reads => exact .straying reads
  · rename_i fd opened
    cases hindered with
    | alive alive => exact .alive alive
    | sibling own given => exact .sibling own given
    | @shared other reads given =>
      refine .shared reads ((Table.lookup_erase_eq _ _ _).trans ((if_neg ?_).trans given))
      rintro rfl
      rw [(held.err _).mpr opened] at given
      cases given
    | straying reads => exact .straying reads

/-- With no logger left, what hinders is the child's number. -/
theorem Hindered.unlogged (hindered : Hindered s) (quiet : s.logger = none ∨ s.logger = some .ended)
    {control : ProcessControl} {logger : Option Logger} {files : Table Nat Opened} {pipeFd : Option Nat} :
    Hindered { s with control, logger, files, pipeFd } := by
  cases hindered with
  | alive alive => exact .alive alive
  | sibling own given => exact .sibling own given
  | shared reads given => rcases quiet with none | ended <;> simp_all
  | straying reads => rcases quiet with none | ended <;> simp_all

theorem Hindered.loggerReads (hindered : Hindered s) {fd : Nat} (between : s.logger = some (.between fd)) :
    Hindered (s.loggerReads fd) := by
  have own (notOther : s.files.lookup fd ≠ some .other) (logger : Logger) :
      Hindered { s with logger := some logger } := by
    cases hindered with
    | alive alive => exact .alive alive
    | sibling own given => exact .sibling own given
    | shared reads given =>
      cases between.symm.trans reads
      exact absurd given notOther
    | straying reads =>
      rw [between] at reads
      cases reads
  unfold BridgeProcess.loggerReads
  split
  · rename_i closed
    exact own (by rw [closed]; nofun) .ended
  · rename_i stderr
    exact own (by rw [stderr]; nofun) (.reading fd)
  · exact .straying rfl

theorem nextStage_hindered (held : Held s) (hindered : Hindered s) {stage : StopStage}
    (here : s.control = .stopping stage thenLaunch) (taken : s.nextStage thenLaunch stage = some next) :
    Hindered next ∧ ∃ stage, next.control = .stopping stage thenLaunch := by
  cases stage with
  | kill =>
    cases taken
    exact ⟨hindered.kill _, _, rfl⟩
  | closeErr =>
    cases taken
    exact ⟨hindered.closeErr held _, _, rfl⟩
  | join =>
    obtain ⟨joined, did, rfl⟩ := Option.map_eq_some_iff.mp taken
    unfold join at did
    split at did
    · cases did
      exact ⟨hindered.unlogged (.inl ‹_›), _, rfl⟩
    · cases did
      exact ⟨hindered.unlogged (.inr ‹_›), _, rfl⟩
    · cases did
  | closeOut =>
    cases taken
    refine ⟨?_, _, rfl⟩
    have quiet := (held.closing thenLaunch here).2
    unfold BridgeProcess.closeOut
    split <;> exact hindered.unlogged (.inl quiet)
  | reap =>
    obtain ⟨reaped, did, rfl⟩ := Option.map_eq_some_iff.mp taken
    have quiet := (held.reaping thenLaunch here).2.1
    unfold reap at did
    cases hindered with
    | alive alive =>
      unfold childAlive at alive
      grind
    | sibling own given =>
      have other := held.siblings _ given
      grind
    | shared reads | straying reads =>
      rw [quiet] at reads
      cases reads

theorem step_hindered (held : Held s) (hindered : Hindered s) {stage : StopStage}
    (here : s.control = .stopping stage thenLaunch) {act : Act} (taken : s.step act = some next)
    (own : act = .next ∨ act = .loggerReads ∨ act = .loggerGets false) :
    Hindered next ∧ ∃ stage, next.control = .stopping stage thenLaunch := by
  rcases own with rfl | rfl | rfl
  · rw [step_next here] at taken
    exact nextStage_hindered held hindered here taken
  · unfold step at taken
    dsimp only at taken
    split at taken
    · rename_i fd between
      cases taken
      refine ⟨hindered.loggerReads between, stage, ?_⟩
      unfold BridgeProcess.loggerReads
      split <;> exact here
    · cases taken
  · unfold step at taken
    dsimp only at taken
    split at taken
    · rename_i fd reading
      obtain ⟨open_, did⟩ := Option.ite_none_left_eq_some.mp taken
      cases did
      refine ⟨?_, stage, here⟩
      cases hindered with
      | alive alive => simp [alive] at open_
      | sibling own given => exact .sibling own given
      | shared reads | straying reads =>
        rw [reading] at reads
        cases reads
    · cases taken

theorem hindered_never_ends (held : Held s) (hindered : Hindered s) {stage : StopStage}
    (here : s.control = .stopping stage thenLaunch) : ¬Ends thenLaunch s := by
  rintro ⟨acts, last, ran, allowed, done⟩
  induction acts generalizing s stage with
  | nil =>
    cases ran
    rw [here] at done
    cases thenLaunch <;> cases done
  | cons act rest ih =>
    rw [List.foldlM_cons] at ran
    obtain ⟨next, taken, ran⟩ := Option.bind_eq_some_iff.mp ran
    obtain ⟨still, stage, on⟩ := step_hindered held hindered here taken (allowed act List.mem_cons_self)
    exact ih (step_held held taken) still on ran fun other later => allowed other (List.mem_cons_of_mem _ later)

end

theorem stoi_digits {port : Nat} (small : port < 2 ^ 31) : stoi (Nat.toDigits 10 port) = some (port : Int) := by
  have digits : ∀ c ∈ Nat.toDigits 10 port, c.isDigit = true := fun c =>
    Nat.isDigit_of_mem_toDigits (by decide) (by decide)
  have whole : (Nat.toDigits 10 port).takeWhile Char.isDigit = Nat.toDigits 10 port :=
    List.takeWhile_eq_self_iff.mpr digits
  have value : Nat.ofDigitChars 10 (Nat.toDigits 10 port) 0 = port := Nat.ofDigitChars_ten_toDigits
  cases shape : Nat.toDigits 10 port with
  | nil => exact absurd shape Nat.toDigits_ne_nil
  | cons first rest =>
    rw [shape] at digits whole value
    have digit := digits first List.mem_cons_self
    have range : 48 ≤ first.toNat ∧ first.toNat ≤ 57 := by
      simpa [Char.isDigit, UInt32.le_iff_toNat_le] using digit
    have solid : isSpace first = false := by
      by_contra blank
      simp only [isSpace, Bool.not_eq_false, Bool.or_eq_true, decide_eq_true_eq] at blank
      rcases blank with ((((rfl | rfl) | rfl) | code) | code) | rfl
      · exact absurd digit (by decide)
      · exact absurd digit (by decide)
      · exact absurd digit (by decide)
      · omega
      · omega
      · exact absurd digit (by decide)
    have minus : first ≠ '-' := by rintro rfl; cases digit
    have plus : first ≠ '+' := by rintro rfl; cases digit
    have unsigned : signOf (first :: rest) = (1, first :: rest) := by
      unfold signOf
      split
      · rename_i same
        exact absurd (List.cons.inj same).1 minus
      · rename_i same
        exact absurd (List.cons.inj same).1 plus
      · rfl
    have inside : -2 ^ 31 ≤ (port : Int) ∧ (port : Int) < 2 ^ 31 := by omega
    unfold stoi
    rw [List.dropWhile_cons_of_neg (by simp [solid]), unsigned]
    dsimp only
    rw [whole, value, Int.one_mul, if_pos ⟨List.cons_ne_nil _ _, inside⟩]

/-- The characters of a line are gathered up to its newline. -/
theorem readReadyLine_line {line before : List Char} (rest : List Char) (whole : '\n' ∉ line) :
    readReadyLine before (line ++ '\n' :: rest) = readReadyLine (before ++ line) ('\n' :: rest) := by
  induction line generalizing before with
  | nil => rw [List.nil_append, List.append_nil]
  | cons c line ih =>
    have other : c ≠ '\n' := fun same => whole (same ▸ List.mem_cons_self)
    have later : '\n' ∉ line := fun inside => whole (List.mem_cons_of_mem _ inside)
    calc
      readReadyLine before (c :: (line ++ '\n' :: rest))
        = readReadyLine (before ++ [c]) (line ++ '\n' :: rest) := by rw [readReadyLine, if_neg other]
      _ = readReadyLine (before ++ [c] ++ line) ('\n' :: rest) := ih later
      _ = readReadyLine (before ++ c :: line) ('\n' :: rest) := by rw [List.append_assoc, List.singleton_append]

/-- What `BridgeServer.serve` prints, with either line end. -/
def readyLine (port : Nat) (cr : Bool) : List Char :=
  ("READY port=" ++ toString port).toList ++ (if cr then ['\r'] else [])

theorem readyLine_eq (port : Nat) (cr : Bool) :
    readyLine port cr = kPrefix ++ Nat.toDigits 10 port ++ (if cr then ['\r'] else []) := by
  rw [readyLine, String.toList_append, Nat.toString_eq_repr, Nat.toList_repr]
  rfl

theorem withoutCr_readyLine (port : Nat) (cr : Bool) :
    withoutCr (readyLine port cr) = kPrefix ++ Nat.toDigits 10 port := by
  rw [readyLine_eq]
  unfold withoutCr
  cases cr with
  | true => simp
  | false =>
    have solid : (kPrefix ++ Nat.toDigits 10 port).getLast? ≠ some '\r' := fun last => by
      rw [List.getLast?_append_of_ne_nil _ Nat.toDigits_ne_nil] at last
      have digit := Nat.isDigit_of_mem_toDigits (by decide) (by decide) (List.mem_of_getLast? last)
      cases digit
    rw [if_neg Bool.false_ne_true, List.append_nil, if_neg solid]

theorem readyLine_whole (port : Nat) (cr : Bool) : '\n' ∉ readyLine port cr := by
  intro inside
  rw [readyLine_eq] at inside
  rcases List.mem_append.mp inside with front | back
  · rcases List.mem_append.mp front with start | digits
    · revert start
      decide +kernel
    · have digit := Nat.isDigit_of_mem_toDigits (by decide) (by decide) digits
      cases digit
  · cases cr <;> simp at back

/-- The port that the bridge prints, after any number of other lines, is the port of the
process. -/
theorem port_read {s : BridgeProcess} {lines : List (List Char)} {port : Nat} (small : port < 2 ^ 31) (cr : Bool)
    (whole : ∀ line ∈ lines, '\n' ∉ line) (others : ∀ line ∈ lines, ¬kPrefix <+: withoutCr line) (rest : List Char) :
    (s.readReady ((lines.flatMap fun line => line ++ ['\n']) ++ (readyLine port cr ++ '\n' :: rest))).port = port := by
  have reads : readReadyLine [] ((lines.flatMap fun line => line ++ ['\n']) ++ (readyLine port cr ++ '\n' :: rest)) =
      .port port := by
    induction lines with
    | nil =>
      have shown : kPrefix.isPrefixOf (kPrefix ++ Nat.toDigits 10 port) = true :=
        List.isPrefixOf_iff_prefix.mpr (List.prefix_append _ _)
      rw [List.flatMap_nil, List.nil_append, readReadyLine_line rest (readyLine_whole port cr), List.nil_append,
        readReadyLine, if_pos rfl, withoutCr_readyLine, if_pos shown, List.drop_left, stoi_digits small]
    | cons line lines ih =>
      have first : ¬kPrefix.isPrefixOf (withoutCr line) = true := fun starts =>
        others line List.mem_cons_self (List.isPrefixOf_iff_prefix.mp starts)
      rw [List.flatMap_cons, List.append_assoc, List.append_assoc, List.singleton_append,
        readReadyLine_line _ (whole line List.mem_cons_self), List.nil_append, readReadyLine, if_pos rfl, if_neg first]
      exact ih (fun other later => whole other (List.mem_cons_of_mem _ later))
        fun other later => others other (List.mem_cons_of_mem _ later)
  unfold readReady
  rw [reads]
  dsimp only
  unfold startStderrLogger
  split <;> rfl

theorem port_read_after_warning :
    (({} : BridgeProcess).readReady (("Picked up JAVA_TOOL_OPTIONS".toList ++ ['\n']) ++
      (readyLine 8089 true ++ '\n' :: []))).port = 8089 := by
  have small : 8089 < 2 ^ 31 := by decide
  have whole : ∀ line ∈ ["Picked up JAVA_TOOL_OPTIONS".toList], '\n' ∉ line := by decide +kernel
  have other : ∀ line ∈ ["Picked up JAVA_TOOL_OPTIONS".toList], ¬kPrefix <+: withoutCr line := by decide +kernel
  have one := port_read (s := {}) small true whole other []
  rwa [List.flatMap_singleton] at one

end GhidraBridge.ProcessLifetime
