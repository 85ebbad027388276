import GhidraBridge.RepositoryEvents

/-! What the panel gets of the events of the watched repositories. The socket keeps the
order in which the streamers write, a response is never taken for an event, and a
streamer writes what it has polled but the keepalives, in order, and at most one event
after it is stopped. -/
namespace GhidraBridge.EventDelivery
open Lib.Runs RequestLoop EventFeed

variable {types : ChangeTypes} {bridgeProjectPath : String}

/-- The event the panel is to get. -/
def toPanel (types : ChangeTypes) (p : PushedEvent) : GhidraEvent where
  repo := p.repoName
  type := eventTypeName types p.evt.type
  parentPath := p.evt.parentPath.getD ""
  name := p.evt.name.getD ""
  newParentPath := p.evt.newParentPath.getD ""
  newName := p.evt.newName.getD ""

/-- An event is read as it was written. -/
theorem shown_eventLine (p : PushedEvent) : shown (eventLine types p.repoName p.evt) = some (toPanel types p) := by
  obtain ⟨thread, repoName, type, parentPath, name, newParentPath, newName⟩ := p
  cases parentPath <;> cases name <;> cases newParentPath <;> cases newName <;> rfl

theorem eventLine_contains (repoName : String) (evt : RepositoryChangeEvent) :
    (eventLine types repoName evt).contains "event" = true := rfl

/-- What the lines on the way hold for the panel. -/
def eventsOf (lines : List Json) : List GhidraEvent := lines.filterMap shown

theorem eventsOf_append (first second : List Json) : eventsOf (first ++ second) = eventsOf first ++ eventsOf second :=
  List.filterMap_append

/-- A response is no event. -/
theorem eventsOf_handle {wire next : Wire} {server : ServerAnswers}
    (handled : wire.handle bridgeProjectPath server = some next) : eventsOf next.output = eventsOf wire.output := by
  unfold Wire.handle at handled
  split at handled
  · cases handled
  · cases handled
    rw [eventsOf_append, List.append_right_eq_self]
    refine List.filterMap_eq_nil_iff.mpr fun answer written => ?_
    have quiet := (handleRequest_worked.answers answer written).event
    rw [shown, quiet]
    rfl

/-- What is left of what a streamer has polled, while it goes on. -/
def Left (thread : StreamThread) (left : List RepositoryChangeEvent) : Prop :=
  match thread.stage with
  | .waiting => left = []
  | .between rest => left = rest
  | .holding evt rest => left = evt :: rest
  | .ended => True

def notNull (types : ChangeTypes) (evt : RepositoryChangeEvent) : Bool := evt.type ≠ types.nullEvent

/-- A streamer has written what it has looked at, but the keepalives; and after its stop it
writes no event but the one it held. -/
structure InOrder (types : ChangeTypes) (sent : List RepositoryChangeEvent) (thread : StreamThread) : Prop where
  looked : ∃ seen left, thread.polled = seen ++ left ∧ Left thread left ∧ sent = seen.filter (notNull types)
  held : ∀ evt rest, thread.stage = .holding evt rest → notNull types evt = true
  stopped : ∀ n, thread.atStop = some n → thread.running = false ∧ sent.length ≤ n + 1 ∧
    ∀ evt rest, thread.stage = .holding evt rest → sent.length ≤ n

/-- The panel's events and those on the way are those written, in order, each by a
streamer of its repository. -/
structure Carried (types : ChangeTypes) (s : EventFeed) : Prop where
  order : s.delivered ++ eventsOf (s.queue ++ s.wire.output) = s.pushed.map (toPanel types)
  named : ∀ p ∈ s.pushed, ∃ thread, s.threads[p.thread]? = some thread ∧ thread.repoName = p.repoName
  each : ∀ (i : Nat) thread, s.threads[i]? = some thread → InOrder types (s.pushedBy i) thread

section
variable {s next : EventFeed} {sent : List RepositoryChangeEvent} {thread after : StreamThread}

theorem poll_inOrder (inOrder : InOrder types sent thread) {events : Option (List RepositoryChangeEvent)}
    (polled : poll events thread = some after) : InOrder types sent after ∧ after.repoName = thread.repoName := by
  obtain ⟨seen, left, all, rest, written⟩ := inOrder.looked
  unfold poll at polled
  unfold Left at rest
  split at polled
  · rename_i _ more waiting
    cases polled
    rw [waiting] at rest
    subst rest
    refine ⟨⟨⟨seen, more, ?_, rfl, written⟩, nofun, fun n stop => ?_⟩, rfl⟩
    · rw [all, List.append_nil]
    · obtain ⟨off, few, -⟩ := inOrder.stopped n stop
      exact ⟨off, few, nofun⟩
  · cases polled
    refine ⟨⟨⟨seen, left, all, trivial, written⟩, nofun, fun n stop => ?_⟩, rfl⟩
    exact ⟨rfl, (inOrder.stopped n stop).2.1, nofun⟩
  · cases polled

theorem look_inOrder (inOrder : InOrder types sent thread) (looked : look types thread = some after) :
    InOrder types sent after ∧ after.repoName = thread.repoName := by
  obtain ⟨seen, left, all, rest, written⟩ := inOrder.looked
  unfold look at looked
  unfold Left at rest
  have few : ∀ n, thread.atStop = some n → thread.running = false ∧ sent.length ≤ n + 1 := fun n stop =>
    ⟨(inOrder.stopped n stop).1, (inOrder.stopped n stop).2.1⟩
  split at looked
  · rename_i before
    cases looked
    rw [before] at rest
    subst rest
    refine ⟨⟨⟨seen, [], all, ?_, written⟩, ?_, fun n stop => ⟨(few n stop).1, (few n stop).2, ?_⟩⟩, rfl⟩
    all_goals cases thread.running <;> simp [Left]
  · rename_i evt more before
    rw [before] at rest
    subst rest
    split at looked
    · cases looked
      exact ⟨⟨⟨seen, evt :: more, all, trivial, written⟩, nofun, fun n stop =>
        ⟨(few n stop).1, (few n stop).2, nofun⟩⟩, rfl⟩
    · rename_i on
      have on : thread.running = true := by simpa using on
      have going : thread.atStop = none := by
        cases mark : thread.atStop with
        | none => rfl
        | some n =>
          have off := (few n mark).1
          rw [on] at off
          cases off
      split at looked
      · rename_i null
        cases looked
        refine ⟨⟨⟨seen ++ [evt], more, ?_, rfl, ?_⟩, nofun, fun n stop => ?_⟩, rfl⟩
        · rw [all, List.append_assoc]
          rfl
        · rw [List.filter_append, written]
          simp [notNull, null]
        · cases going.symm.trans stop
      · rename_i change
        cases looked
        refine ⟨⟨⟨seen, evt :: more, all, rfl, written⟩, ?_, fun n stop => ?_⟩, rfl⟩
        · rintro other rest ⟨⟩
          simpa [notNull] using change
        · cases going.symm.trans stop
  · cases looked

theorem stop_inOrder (inOrder : InOrder types sent thread) : InOrder types sent (stop sent.length thread) where
  looked := inOrder.looked
  held := inOrder.held
  stopped n stop := by
    cases mark : thread.atStop with
    | none =>
      rw [EventFeed.stop, mark] at stop
      cases stop
      exact ⟨rfl, Nat.le_succ _, fun _ _ _ => Nat.le_refl _⟩
    | some before =>
      rw [EventFeed.stop, mark] at stop
      cases stop
      obtain ⟨-, few, still⟩ := inOrder.stopped _ mark
      exact ⟨rfl, few, still⟩

/-- The event a streamer holds is the next one of those it has polled. -/
theorem push_inOrder (inOrder : InOrder types sent thread) {evt : RepositoryChangeEvent}
    {rest : List RepositoryChangeEvent} (held : thread.stage = .holding evt rest) :
    InOrder types (sent ++ [evt]) { thread with stage := .between rest } := by
  obtain ⟨seen, left, all, remaining, written⟩ := inOrder.looked
  unfold Left at remaining
  rw [held] at remaining
  subst remaining
  refine ⟨⟨seen ++ [evt], rest, ?_, rfl, ?_⟩, nofun, fun n stop => ?_⟩
  · rw [all, List.append_assoc]
    rfl
  · rw [List.filter_append, written, List.filter_cons_of_pos (inOrder.held evt rest held), List.filter_nil]
  · obtain ⟨off, -, few⟩ := inOrder.stopped n stop
    refine ⟨off, ?_, nofun⟩
    rw [List.length_append, List.length_singleton]
    exact Nat.succ_le_succ (few evt rest held)

/-- A step of one streamer leaves the others alone. -/
theorem onThread_carried (carried : Carried types s) {i : Nat} {f : StreamThread → Option StreamThread}
    (keeps : ∀ thread after, InOrder types (s.pushedBy i) thread → f thread = some after →
      InOrder types (s.pushedBy i) after ∧ after.repoName = thread.repoName)
    (taken : s.onThread i f = some next) : Carried types next := by
  unfold onThread at taken
  split at taken
  · cases taken
  · rename_i thread here
    obtain ⟨after, did, rfl⟩ := Option.map_eq_some_iff.mp taken
    obtain ⟨inOrder, name⟩ := keeps thread after (carried.each i thread here) did
    have inside : i < s.threads.length := (List.getElem?_eq_some_iff.mp here).1
    refine ⟨carried.order, fun p member => ?_, fun k other there => ?_⟩
    · obtain ⟨own, found, same⟩ := carried.named p member
      by_cases this : i = p.thread
      · subst this
        cases here.symm.trans found
        exact ⟨after, List.getElem?_set_self inside, name.trans same⟩
      · exact ⟨own, (List.getElem?_set_ne this).trans found, same⟩
    · by_cases this : i = k
      · subst this
        rw [List.getElem?_set_self inside] at there
        cases there
        exact inOrder
      · rw [List.getElem?_set_ne this] at there
        exact carried.each k other there

theorem start_carried : Carried types {} := ⟨rfl, nofun, nofun⟩

theorem fresh_inOrder (repoName : String) : InOrder types [] { repoName } :=
  ⟨⟨[], [], rfl, rfl, rfl⟩, nofun, nofun⟩

theorem push_carried (carried : Carried types s) {i : Nat} (taken : s.push types i = some next) :
    Carried types next := by
  unfold push at taken
  split at taken
  · cases taken
  · rename_i thread here
    split at taken
    · rename_i evt rest held
      have inside : i < s.threads.length := (List.getElem?_eq_some_iff.mp here).1
      unfold Wire.event at taken
      rw [if_pos (eventLine_contains _ _), Option.map_some] at taken
      cases taken
      refine ⟨?_, fun p member => ?_, fun k other there => ?_⟩
      · have line : eventsOf [eventLine types thread.repoName evt] = [toPanel types ⟨i, thread.repoName, evt⟩] := by
          rw [eventsOf, List.filterMap_cons, shown_eventLine ⟨i, thread.repoName, evt⟩]
          rfl
        dsimp only
        rw [List.map_append, ← carried.order, ← List.append_assoc, eventsOf_append _ [_], line, List.append_assoc]
        rfl
      · rcases List.mem_append.mp member with old | new
        · obtain ⟨own, found, same⟩ := carried.named p old
          by_cases this : i = p.thread
          · subst this
            cases here.symm.trans found
            exact ⟨_, List.getElem?_set_self inside, same⟩
          · exact ⟨own, (List.getElem?_set_ne this).trans found, same⟩
        · cases List.mem_singleton.mp new
          exact ⟨_, List.getElem?_set_self inside, rfl⟩
      · unfold pushedBy
        rw [List.filter_append, List.map_append]
        by_cases this : i = k
        · subst this
          rw [List.getElem?_set_self inside] at there
          cases there
          simpa [pushedBy] using push_inOrder (carried.each i thread here) held
        · rw [List.getElem?_set_ne this] at there
          simpa [pushedBy, this] using carried.each k other there
    · cases taken

theorem step_carried {act : Act} (carried : Carried types s) (moved : Step types bridgeProjectPath s act next) :
    Carried types next := by
  unfold Step step at moved
  cases act with
  | start repoName =>
    cases moved
    refine ⟨carried.order, fun p member => ?_, fun i thread there => ?_⟩
    · obtain ⟨own, found, same⟩ := carried.named p member
      exact ⟨own, (List.getElem?_append_left (List.getElem?_eq_some_iff.mp found).1).trans found, same⟩
    · rcases Nat.lt_or_ge i s.threads.length with old | fresh
      · rw [List.getElem?_append_left old] at there
        exact carried.each i thread there
      · have none : s.pushedBy i = [] := by
          unfold pushedBy
          rw [List.filter_eq_nil_iff.mpr, List.map_nil]
          intro p member own
          obtain ⟨_, found, -⟩ := carried.named p member
          have below := (List.getElem?_eq_some_iff.mp found).1
          have this : p.thread = i := by simpa using own
          omega
        rw [List.getElem?_append_right fresh] at there
        obtain rfl : thread = { repoName } := by
          have member := List.mem_of_getElem? there
          exact List.mem_singleton.mp member
        show InOrder types (s.pushedBy i) _
        rw [none]
        exact fresh_inOrder repoName
  | stop i => exact onThread_carried carried (fun thread after inOrder did => by
      cases did
      exact ⟨stop_inOrder inOrder, rfl⟩) moved
  | poll i events => exact onThread_carried carried (fun _ _ inOrder did => poll_inOrder inOrder did) moved
  | look i => exact onThread_carried carried (fun _ _ inOrder did => look_inOrder inOrder did) moved
  | push i => exact push_carried carried moved
  | request line =>
    cases moved
    exact { carried with }
  | handle server =>
    obtain ⟨wire, handled, rfl⟩ := Option.map_eq_some_iff.mp moved
    refine { carried with order := ?_ }
    dsimp only
    rw [eventsOf_append, eventsOf_handle handled, ← eventsOf_append]
    exact carried.order
  | recv n =>
    cases moved
    refine { carried with order := ?_ }
    dsimp only
    rw [List.append_assoc, List.take_append_drop]
    exact carried.order
  | dispatch =>
    dsimp only at moved
    split at moved
    · cases moved
    · rename_i msg queue waits
      cases moved
      refine { carried with order := ?_ }
      rw [← carried.order, waits]
      dsimp only
      rw [List.append_assoc, List.cons_append, eventsOf, eventsOf, List.filterMap_cons]
      cases shown msg <;> rfl

end

/-- In every run of a connection, the panel is given, and on the way to it are, exactly the
events written, in order, with all their fields and under the repository they come from;
each streamer has written a front part of what it polled but the keepalives, all of it
when it polls again, and at most one event after it is stopped. -/
theorem events_delivered {s : EventFeed} (reached : Reaches (Step types bridgeProjectPath) (fun _ _ => True) {} s) :
    s.delivered ++ eventsOf (s.queue ++ s.wire.output) = s.pushed.map (toPanel types) ∧
      ∀ (i : Nat) thread, s.threads[i]? = some thread →
        (∀ p ∈ s.pushed, p.thread = i → p.repoName = thread.repoName) ∧
          s.pushedBy i <+: thread.polled.filter (notNull types) ∧
          (thread.stage = .waiting → s.pushedBy i = thread.polled.filter (notNull types)) ∧
          ∀ n, thread.atStop = some n → (s.pushedBy i).length ≤ n + 1 := by
  have carried : Carried types s :=
    reached.invariant start_carried fun _ _ _ carried _ moved => step_carried carried moved
  refine ⟨carried.order, fun i thread here => ?_⟩
  obtain ⟨seen, left, all, rest, written⟩ := (carried.each i thread here).looked
  refine ⟨fun p member own => ?_, ?_, fun waiting => ?_, fun n stop =>
    ((carried.each i thread here).stopped n stop).2.1⟩
  · obtain ⟨other, found, same⟩ := carried.named p member
    rw [own, here] at found
    cases found
    exact same.symm
  · rw [written, all, List.filter_append]
    exact List.prefix_append _ _
  · unfold Left at rest
    rw [waiting] at rest
    rw [written, all, rest, List.append_nil]

/-- The change types by their place. -/
def numbered : ChangeTypes := ⟨-1, 0, 1, 2, 3, 4, 5, 6, 7, 8, 9⟩

theorem checked_in_item_delivered :
    ∃ s : EventFeed, s.delivered = [⟨"firmware", "REP_ITEM_CHANGED", "/", "boot", "", ""⟩] ∧
      s.delivered ++ eventsOf (s.queue ++ s.wire.output) = s.pushed.map (toPanel numbered) := by
  let changed : RepositoryChangeEvent := ⟨8, some "/", some "boot", none, none⟩
  let acts : List Act := [.start "firmware", .look 0, .poll 0 (some [⟨-1, none, none, none, none⟩, changed]), .look 0,
    .look 0, .stop 0, .push 0, .recv 1, .dispatch]
  have seen : (acts.foldlM (step numbered "/") {}).map (fun s => s.delivered) =
      some [⟨"firmware", "REP_ITEM_CHANGED", "/", "boot", "", ""⟩] := by decide +kernel
  obtain ⟨s, ran, shows⟩ := Option.map_eq_some_iff.mp seen
  exact ⟨s, shows, (events_delivered (Reaches.foldlM .start (fun _ _ _ => trivial) ran)).1⟩

end GhidraBridge.EventDelivery
