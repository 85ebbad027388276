import GhidraBridge.CheckoutBookkeeping
import GhidraBridge.ProjectPanel

/-! The three places that end a checkout. A check-in request looks for a checkout by
its user and its project path; the menu command `Terminate Checkout` and the
question asked when there is nothing to check in look for it by its user alone. -/
namespace GhidraBridge.CheckoutRelease
open Lib BridgeConnection

/-- `CheckoutInfo`, as it arrives in the plugin: a missing project path is empty. -/
structure CheckoutInfo where
  id : Int
  type : CheckoutType
  user : String
  version : Int32
  projectPath : String
  deriving DecidableEq

/-- `checkoutFromJson` of `checkoutToJson`. -/
def checkoutInfo (id : Int) (status : ItemCheckoutStatus) : CheckoutInfo :=
  ⟨id, status.checkoutType, status.user, status.checkoutVersion, status.projectPath.getD ""⟩

/-! ## The plugin's requests -/

/-- The checkouts a session lists of an item; the bridge walks the list, so a missing
one makes it throw. -/
def listCheckouts (session : GhidraSession) (repo : String) (checkouts : Checkouts) :
    Except String (List (Int × ItemCheckoutStatus)) :=
  match session.getRepo repo with
  | .error what => .error what
  | .ok handle =>
    match handle.getCheckouts with
    | .error what => .error what
    | .ok false => .error "java.lang.NullPointerException"
    | .ok true => .ok checkouts.entries.items

/-- `GhidraConnection::getCheckouts`: empty where the request fails. -/
def getCheckouts (session : GhidraSession) (repo : String) (checkouts : Checkouts) : List CheckoutInfo :=
  match listCheckouts session repo checkouts with
  | .error _ => []
  | .ok entries => entries.map fun entry => checkoutInfo entry.1 entry.2

/-- `GhidraConnection::terminateCheckout`. -/
def terminateCheckout (session : GhidraSession) (repo : String) (checkouts : Checkouts) (coId : Int) : Checkouts :=
  match session.getRepo repo with
  | .error _ => checkouts
  | .ok handle => terminateQuietly handle checkouts coId

/-- The first checkout of the plugin's user, or -1. -/
def ownCheckout (checkouts : List CheckoutInfo) (myUser : String) : Int :=
  ((checkouts.find? fun co => co.user = myUser).map CheckoutInfo.id).getD (-1)

/-- What both commands of the panel do on their worker. -/
def releaseOwn (session : GhidraSession) (repo myUser : String) (checkouts : Checkouts) : Checkouts :=
  let coId := ownCheckout (getCheckouts session repo checkouts) myUser
  if 0 ≤ coId then terminateCheckout session repo checkouts coId else checkouts

/-- The ways to end a checkout. `answer` is the user's to the question of the dialog. -/
inductive Release where
  | opCheckin (apply : CheckinRequest → Except String Json) (req : Json)
  | terminateCheckout (clicked : Item) (answer : Bool)
  | doCheckinWithState (state : CheckinState) (view : BinaryView) (answer : Bool)

/-- The checkouts after one of them. -/
def release (session : GhidraSession) (bridgeProjectPath myUser : String) (checkouts : Checkouts) :
    Release → Checkouts
  | .opCheckin apply req => (opCheckin session bridgeProjectPath apply req checkouts).2
  | .terminateCheckout clicked answer =>
    if answer then releaseOwn session clicked.repo myUser checkouts else checkouts
  | .doCheckinWithState state view answer =>
    if (state.collectCheckinChanges view).empty && state.hasCheckinState && answer then
      releaseOwn session state.checkinRepo myUser checkouts
    else checkouts

/-! ## The checkout that is ended -/

/-- The checkout a check-in request ends, as it stands by then. A request that fails
ends only one it made itself. -/
def endedByCheckin (session : GhidraSession) (bridgeProjectPath : String)
    (apply : CheckinRequest → Except String Json) (req : Json) (checkouts : Checkouts) :
    Option (Int × ItemCheckoutStatus) :=
  match readCheckin req with
  | none => none
  | some request =>
    match session.getRepo request.repo with
    | .error _ => none
    | .ok repo =>
      match acquire repo session.connectedUser bridgeProjectPath checkouts with
      | .error _ => none
      | .ok acquired =>
        if (repo.openDatabase acquired.coId >>= fun _ => apply request).isOk || acquired.ownedCheckout then
          (acquired.checkouts.entries.lookup acquired.coId).map fun status => (acquired.coId, status)
        else none

/-- The checkout a command of the panel ends: the first one listed of the user. -/
def endedByPanel (session : GhidraSession) (repo myUser : String) (checkouts : Checkouts) :
    Option (Int × ItemCheckoutStatus) :=
  match listCheckouts session repo checkouts with
  | .error _ => none
  | .ok entries => entries.find? fun entry => entry.2.user = myUser

/-- The checkout that is asked to be terminated, if there is one. -/
def ended (session : GhidraSession) (bridgeProjectPath myUser : String) (checkouts : Checkouts) :
    Release → Option (Int × ItemCheckoutStatus)
  | .opCheckin apply req => endedByCheckin session bridgeProjectPath apply req checkouts
  | .terminateCheckout clicked answer =>
    if answer then endedByPanel session clicked.repo myUser checkouts else none
  | .doCheckinWithState state view answer =>
    if (state.collectCheckinChanges view).empty && state.hasCheckinState && answer then
      endedByPanel session state.checkinRepo myUser checkouts
    else none

section
variable {session : GhidraSession} {repo bridgeProjectPath myUser : String} {checkouts : Checkouts}

/-- What is listed is in the table. -/
theorem endedByPanel_held {entry : Int × ItemCheckoutStatus}
    (ends : endedByPanel session repo myUser checkouts = some entry) :
    checkouts.entries.lookup entry.1 = some entry.2 ∧ entry.2.user = myUser := by
  unfold endedByPanel listCheckouts at ends
  split at ends
  · cases ends
  · rename_i entries lists
    split at lists
    · cases lists
    · split at lists
      · cases lists
      · cases lists
      · cases lists
        exact ⟨Table.mem_items.mp (List.mem_of_find?_eq_some ends), by simpa using List.find?_some ends⟩

/-- The plugin ends that checkout by its id, and no other one. -/
theorem ownCheckout_eq :
    ownCheckout (getCheckouts session repo checkouts) myUser =
      ((endedByPanel session repo myUser checkouts).map Prod.fst).getD (-1) := by
  unfold ownCheckout getCheckouts endedByPanel
  cases listCheckouts session repo checkouts with
  | error what => rfl
  | ok entries =>
    rw [List.find?_map, Option.map_map]
    rfl

/-- A checkout that is gone after a command of the panel is the one it ended. -/
theorem releaseOwn_gone {id : Int} {status : ItemCheckoutStatus} (held : checkouts.entries.lookup id = some status)
    (gone : (releaseOwn session repo myUser checkouts).entries.lookup id = none) :
    endedByPanel session repo myUser checkouts = some (id, status) := by
  have kept {after : Checkouts} (same : after.entries.lookup id = checkouts.entries.lookup id) :
      after.entries.lookup id ≠ none := by
    rw [same, held]
    exact Option.some_ne_none _
  unfold releaseOwn at gone
  rw [ownCheckout_eq] at gone
  cases ends : endedByPanel session repo myUser checkouts with
  | none =>
    rw [ends] at gone
    exact absurd gone (kept rfl)
  | some entry =>
    rw [ends, Option.map_some, Option.getD_some] at gone
    obtain ⟨found, _⟩ := endedByPanel_held ends
    have here : id = entry.1 := by
      by_contra apart
      refine absurd gone (kept ?_)
      dsimp only
      split
      · unfold terminateCheckout
        split
        · rfl
        · exact lookup_terminateQuietly apart checkouts
      · rfl
    subst here
    rw [held, Option.some.injEq] at found
    rw [found]

/-- A checkout that is gone after a check-in request is the one it ended. -/
theorem opCheckin_gone {apply : CheckinRequest → Except String Json} {req : Json} {id : Int}
    {status : ItemCheckoutStatus} (held : checkouts.entries.lookup id = some status)
    (gone : (opCheckin session bridgeProjectPath apply req checkouts).2.entries.lookup id = none) :
    endedByCheckin session bridgeProjectPath apply req checkouts = some (id, status) := by
  have kept {after : Checkouts} (same : after.entries.lookup id = some status) : after.entries.lookup id ≠ none := by
    rw [same]
    exact Option.some_ne_none _
  unfold opCheckin at gone
  unfold endedByCheckin
  cases read : readCheckin req with
  | none =>
    rw [read] at gone
    exact absurd gone (kept held)
  | some request =>
    rw [read] at gone
    dsimp only at gone ⊢
    cases opened : session.getRepo request.repo with
    | error what =>
      rw [opened] at gone
      exact absurd gone (kept held)
    | ok handle =>
      rw [opened] at gone
      dsimp only at gone ⊢
      cases acquires : acquire handle session.connectedUser bridgeProjectPath checkouts with
      | error what =>
        rw [acquires] at gone
        exact absurd gone (kept held)
      | ok acquired =>
        rw [acquires] at gone
        dsimp only at gone ⊢
        obtain ⟨_, taken⟩ := acquire_cases acquires
        have still : acquired.checkouts.entries.lookup id = some status := by
          rcases taken with ⟨_, same⟩ | ⟨_, _, other, _, added⟩
          · rw [same]
            exact held
          · have old : id ≠ checkouts.nextId := by
              have bound := checkouts.issued id status held
              omega
            rw [added, Checkouts.add, Table.lookup_set, if_neg old]
            exact held
        have here : id = acquired.coId := by
          by_contra apart
          refine absurd gone (kept ?_)
          split
          · dsimp only
            split
            · rw [lookup_terminateQuietly apart]
              exact still
            · exact still
          · dsimp only
            rw [lookup_terminateQuietly apart, lookup_updateToNewest apart]
            exact still
        have ends : ((handle.openDatabase acquired.coId >>= fun _ => apply request).isOk ||
            acquired.ownedCheckout) = true := by
          cases writes : handle.openDatabase acquired.coId >>= fun _ => apply request with
          | ok result => rfl
          | error what =>
            cases owned : acquired.ownedCheckout with
            | true => rfl
            | false =>
              rw [writes, owned] at gone
              exact absurd gone (kept still)
        rw [if_pos ends, ← here, still]
        rfl

/-- Whatever is gone from the table afterwards is the checkout that was ended. -/
theorem release_gone {path : Release} {id : Int} {status : ItemCheckoutStatus}
    (held : checkouts.entries.lookup id = some status)
    (gone : (release session bridgeProjectPath myUser checkouts path).entries.lookup id = none) :
    ended session bridgeProjectPath myUser checkouts path = some (id, status) := by
  have asked (confirmed : Bool) (repo : String)
      (gone : (if confirmed = true then releaseOwn session repo myUser checkouts else checkouts).entries.lookup id =
        none) :
      (if confirmed = true then endedByPanel session repo myUser checkouts else none) = some (id, status) := by
    cases confirmed with
    | true => exact releaseOwn_gone held gone
    | false =>
      have same := held.symm.trans gone
      cases same
  cases path with
  | opCheckin apply req => exact opCheckin_gone held gone
  | terminateCheckout clicked answer => exact asked answer clicked.repo gone
  | doCheckinWithState state view answer => exact asked _ state.checkinRepo gone

end

/-! ## Whose checkout it is -/

/-- The session is the user's: the bridge knows the name, and the server makes
checkouts under it. -/
structure ConnectedAs (session : GhidraSession) (user : String) : Prop where
  known : session.connectedUser = some user
  served : ∀ name repo, session.getRepo name = .ok repo → repo.user = user

/-- The first checkout of the user that the repository lists is a bridge's. -/
def FirstIsBridge (session : GhidraSession) (repo bridgeProjectPath user : String) (checkouts : Checkouts) : Prop :=
  ∀ handle, session.getRepo repo = .ok handle → handle.getCheckouts = .ok true →
    ∀ entry, checkouts.entries.items.find? (fun entry => entry.2.user = user) = some entry →
      entry.2.projectPath = some bridgeProjectPath

/-- The panel's commands, once confirmed, find a bridge checkout first. -/
def FindsBridge (session : GhidraSession) (bridgeProjectPath user : String) (checkouts : Checkouts) : Release → Prop
  | .opCheckin _ _ => True
  | .terminateCheckout clicked answer =>
    answer = true → FirstIsBridge session clicked.repo bridgeProjectPath user checkouts
  | .doCheckinWithState state view answer =>
    ((state.collectCheckinChanges view).empty && state.hasCheckinState && answer) = true →
      FirstIsBridge session state.checkinRepo bridgeProjectPath user checkouts

section
variable {session : GhidraSession} {repo bridgeProjectPath user : String} {checkouts : Checkouts}

theorem endedByPanel_bridge_iff :
    (∀ entry, endedByPanel session repo user checkouts = some entry →
      isBridgeCheckout (some user) bridgeProjectPath entry.2 = true) ↔
      FirstIsBridge session repo bridgeProjectPath user checkouts := by
  have bridge (status : ItemCheckoutStatus) (own : status.user = user) :
      isBridgeCheckout (some user) bridgeProjectPath status = true ↔ status.projectPath = some bridgeProjectPath := by
    simp [isBridgeCheckout, own]
  constructor
  · intro ends handle opened lists entry first
    have chosen : endedByPanel session repo user checkouts = some entry := by
      rw [endedByPanel, listCheckouts, opened]
      dsimp only
      rw [lists]
      exact first
    exact (bridge entry.2 (endedByPanel_held chosen).2).mp (ends entry chosen)
  · intro first entry chosen
    refine (bridge entry.2 (endedByPanel_held chosen).2).mpr ?_
    unfold endedByPanel listCheckouts at chosen
    cases opened : session.getRepo repo with
    | error what =>
      rw [opened] at chosen
      cases chosen
    | ok handle =>
      rw [opened] at chosen
      dsimp only at chosen
      cases lists : handle.getCheckouts with
      | error what =>
        rw [lists] at chosen
        cases chosen
      | ok present =>
        rw [lists] at chosen
        cases present with
        | false => cases chosen
        | true => exact first handle opened lists entry chosen

/-- A request ends a checkout it found by both, or one it made itself. -/
theorem endedByCheckin_bridge (connected : ConnectedAs session user) (apply : CheckinRequest → Except String Json)
    (req : Json) {entry : Int × ItemCheckoutStatus}
    (ends : endedByCheckin session bridgeProjectPath apply req checkouts = some entry) :
    isBridgeCheckout (some user) bridgeProjectPath entry.2 = true := by
  unfold endedByCheckin at ends
  cases read : readCheckin req with
  | none =>
    rw [read] at ends
    cases ends
  | some request =>
    rw [read] at ends
    dsimp only at ends
    cases opened : session.getRepo request.repo with
    | error what =>
      rw [opened] at ends
      cases ends
    | ok handle =>
      rw [opened] at ends
      dsimp only at ends
      cases acquires : acquire handle session.connectedUser bridgeProjectPath checkouts with
      | error what =>
        rw [acquires] at ends
        cases ends
      | ok acquired =>
        rw [acquires] at ends
        dsimp only at ends
        split at ends
        · obtain ⟨status, held, rfl⟩ := Option.map_eq_some_iff.mp ends
          obtain ⟨used, taken⟩ := acquire_cases acquires
          rcases taken with ⟨_, same⟩ | ⟨_, new, added, ⟨sameUser, samePath⟩, after⟩
          · rw [same] at held
            rw [← connected.known]
            by_contra foreign
            exact used.apart held (by simpa using foreign) rfl
          · rw [after, new, Checkouts.add, Table.lookup_set, if_pos rfl, Option.some.injEq] at held
            rw [← held]
            simp [isBridgeCheckout, sameUser, samePath, connected.served _ _ opened]
        · cases ends

/-- On every table and for every way to end a checkout: what is gone afterwards is the
entry that was ended, and that is a bridge checkout of the connected user exactly when
the commands of the panel find one first. -/
theorem only_bridge_checkouts_ended_iff (session : GhidraSession) (bridgeProjectPath user : String)
    (checkouts : Checkouts) (path : Release) (connected : ConnectedAs session user) :
    (∀ id status, checkouts.entries.lookup id = some status →
        (release session bridgeProjectPath user checkouts path).entries.lookup id = none →
          ended session bridgeProjectPath user checkouts path = some (id, status)) ∧
      ((∀ entry, ended session bridgeProjectPath user checkouts path = some entry →
        entry.2.user = user ∧ entry.2.projectPath = some bridgeProjectPath) ↔
        FindsBridge session bridgeProjectPath user checkouts path) := by
  refine ⟨fun id status held gone => release_gone held gone, ?_⟩
  have bridge (status : ItemCheckoutStatus) :
      status.user = user ∧ status.projectPath = some bridgeProjectPath ↔
        isBridgeCheckout (some user) bridgeProjectPath status = true := by
    rw [isBridgeCheckout, decide_eq_true_iff, Option.some.injEq, eq_comm]
  have asked (confirmed : Bool) (repo : String) :
      (∀ entry, (if confirmed = true then endedByPanel session repo user checkouts else none) = some entry →
        isBridgeCheckout (some user) bridgeProjectPath entry.2 = true) ↔
        (confirmed = true → FirstIsBridge session repo bridgeProjectPath user checkouts) := by
    cases confirmed with
    | true => simp only [if_true, true_imp_iff, endedByPanel_bridge_iff]
    | false => simp
  simp only [bridge]
  cases path with
  | opCheckin apply req => exact iff_of_true (fun entry ends => endedByCheckin_bridge connected apply req ends) trivial
  | terminateCheckout clicked answer => exact asked answer clicked.repo
  | doCheckinWithState state view answer => exact asked _ state.checkinRepo

end

/-- A repository that carries everything out, for a session of `ana`. -/
def openRepository : RepositoryHandle where
  getCheckouts := .ok true
  checkout := .ok false
  user := "ana"
  currentVersion := 3
  openDatabase := fun _ => .ok ()
  getVersions := .ok [1, 2, 3]
  updateCheckoutVersion := .ok ()
  terminateCheckout := fun _ => .ok ()

def openSession : GhidraSession := { openRepos := [("fw", openRepository)], connectedUser := some "ana" }

theorem openSession_connected : ConnectedAs openSession "ana" where
  known := rfl
  served name repo opened := by
    by_cases here : name = "fw"
    · subst here
      cases opened
      rfl
    · have missing : openSession.openRepos.lookup name = none := by
        simp [openSession, List.lookup_cons, beq_false_of_ne here]
      rw [GhidraSession.getRepo, missing] at opened
      cases opened

/-- A checkout made in Ghidra. -/
def ghidraCheckout (user : String) : ItemCheckoutStatus := ⟨.normal, user, 3, some "host::/home/ana/project"⟩

/-- A checkout made by the bridge. -/
def bridgeCheckout (user : String) : ItemCheckoutStatus := ⟨.exclusive, user, 3, some "host::binja-ghidra"⟩

/-- Beside another user's checkout, the command ends the bridge checkout. -/
theorem terminate_finds_bridge_checkout :
    let checkouts := (Checkouts.add ∅ (ghidraCheckout "bob")).add (bridgeCheckout "ana")
    let path := Release.terminateCheckout ⟨"fw", "/", "a.out"⟩ true
    ended openSession "host::binja-ghidra" "ana" checkouts path = some (2, bridgeCheckout "ana") ∧
      ∀ entry, ended openSession "host::binja-ghidra" "ana" checkouts path = some entry →
        entry.2.user = "ana" ∧ entry.2.projectPath = some "host::binja-ghidra" := by
  intro checkouts path
  refine ⟨by decide +kernel, ?_⟩
  refine (only_bridge_checkouts_ended_iff openSession "host::binja-ghidra" "ana" checkouts path
    openSession_connected).2.mpr ?_
  intro _ handle _ _ entry first
  have found : checkouts.entries.items.find? (fun entry => entry.2.user = "ana") = some (2, bridgeCheckout "ana") := by
    decide +kernel
  rw [found] at first
  cases first
  rfl

/-- Where the user has the item checked out in Ghidra and the bridge has not, the
command ends the checkout of Ghidra. -/
theorem terminate_ends_ghidra_checkout :
    let checkouts := Checkouts.add ∅ (ghidraCheckout "ana")
    let path := Release.terminateCheckout ⟨"fw", "/", "a.out"⟩ true
    ConnectedAs openSession "ana" ∧
      ended openSession "host::binja-ghidra" "ana" checkouts path = some (1, ghidraCheckout "ana") ∧
      (release openSession "host::binja-ghidra" "ana" checkouts path).entries.items = [] ∧
      (ghidraCheckout "ana").projectPath ≠ some "host::binja-ghidra" := by
  intro checkouts path
  exact ⟨openSession_connected, by decide +kernel, by decide +kernel, by decide +kernel⟩

end GhidraBridge.CheckoutRelease
