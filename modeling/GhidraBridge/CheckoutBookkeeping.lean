import GhidraBridge.ProgramApplier

/-! The checkouts of an item through a check-in request (`opCheckin` of
`BridgeConnection.java`). The request works under a checkout of its own: a bridge
checkout an earlier request left behind, or an exclusive one it asks for. What the
repository and the importer answer is given for each call; any of them may throw an
exception. Opening and changing the database leaves the checkouts alone. -/
namespace GhidraBridge
open Lib

inductive CheckoutType where
  | normal | exclusive | transient
  deriving DecidableEq

/-- A checkout, under its id. -/
structure ItemCheckoutStatus where
  checkoutType : CheckoutType
  user : String
  checkoutVersion : Int32
  projectPath : Option String
  deriving DecidableEq

/-- The checkouts of one item. Ids are positive and given out once. -/
structure Checkouts where
  entries : Table Int ItemCheckoutStatus
  nextId : Int
  positive : 0 < nextId
  issued : ∀ id status, entries.lookup id = some status → 0 < id ∧ id < nextId

namespace Checkouts

instance : EmptyCollection Checkouts where
  emptyCollection :=
    { entries := ∅
      nextId := 1
      positive := by decide
      issued := by simp }

/-- A new checkout, with its id. -/
def add (checkouts : Checkouts) (status : ItemCheckoutStatus) : Checkouts where
  entries := checkouts.entries.set checkouts.nextId status
  nextId := checkouts.nextId + 1
  positive := by
    have bound := checkouts.positive
    omega
  issued := by
    intro id found held
    rw [Table.lookup_set] at held
    split at held
    · rename_i here
      subst here
      exact ⟨checkouts.positive, by omega⟩
    · have bound := checkouts.issued id found held
      omega

def terminate (checkouts : Checkouts) (id : Int) : Checkouts :=
  { checkouts with
    entries := checkouts.entries.erase id
    issued := by
      intro probe found held
      exact checkouts.issued probe found (Table.of_lookup_erase held).2 }

def setVersion (checkouts : Checkouts) (id : Int) (status : ItemCheckoutStatus)
    (held : checkouts.entries.lookup id = some status) (checkoutVersion : Int32) : Checkouts :=
  { checkouts with
    entries := checkouts.entries.set id { status with checkoutVersion }
    issued := by
      intro probe found written
      rw [Table.lookup_set] at written
      split at written
      · rename_i here
        exact here ▸ checkouts.issued id status held
      · exact checkouts.issued probe found written }

/-- The version of the checkout of an id, if there is one. -/
def updateVersion (checkouts : Checkouts) (id : Int) (checkoutVersion : Int32) : Checkouts :=
  match held : checkouts.entries.lookup id with
  | none => checkouts
  | some status => checkouts.setVersion id status held checkoutVersion

end Checkouts

/-- The parts of a check-in request. -/
structure CheckinRequest where
  repo : String
  folder : String
  item : String
  comment : String
  symbols : List Json
  comments : List Json
  equateRenames : List Json
  equateRefAdds : List Json
  bookmarkChanges : List Json
  paramRenames : List Json
  dataTypeChanges : List Json
  dataItemChanges : List Json
  funcSigChanges : List Json

/-- What the repository answers to the calls of one request. A missing list of
checkouts and a refused checkout are `false`. -/
structure RepositoryHandle where
  getCheckouts : Except String Bool
  checkout : Except String Bool
  /-- The user the server knows the session by. -/
  user : String
  /-- The version a new checkout is of. -/
  currentVersion : Int32
  openDatabase : Int → Except String Unit
  getVersions : Except String (List Int32)
  updateCheckoutVersion : Except String Unit
  terminateCheckout : Int → Except String Unit

/-- The parts of a session a check-in reads. -/
structure GhidraSession where
  openRepos : List (String × RepositoryHandle)
  connectedUser : Option String

def GhidraSession.getRepo (session : GhidraSession) (name : String) : Except String RepositoryHandle :=
  match session.openRepos.lookup name with
  | none => .error ("Repository not open: " ++ name)
  | some repo => .ok repo

namespace BridgeConnection

/-- A member that has to be an array if it is there. -/
def arrayOrEmpty (req : Json) (key : String) : Option (List Json) :=
  match req.get? key with
  | none => some []
  | some (.arr items) => some items
  | some _ => none

def readCheckin (req : Json) : Option CheckinRequest := do
  return {
    repo := ← (req.get? "repo").bind Json.getAsString
    folder := ← req.getStr "folder" "/"
    item := ← (req.get? "item").bind Json.getAsString
    comment := ← req.getStr "comment" "BN sync"
    symbols := ← arrayOrEmpty req "symbols"
    comments := ← arrayOrEmpty req "comments"
    equateRenames := ← arrayOrEmpty req "equate_renames"
    equateRefAdds := ← arrayOrEmpty req "equate_ref_adds"
    bookmarkChanges := ← arrayOrEmpty req "bookmark_changes"
    paramRenames := ← arrayOrEmpty req "param_renames"
    dataTypeChanges := ← arrayOrEmpty req "data_type_changes"
    dataItemChanges := ← arrayOrEmpty req "data_item_changes"
    funcSigChanges := ← arrayOrEmpty req "func_sig_changes" }

/-- The members of the reply to a check-in. -/
def checkinReply (req : CheckinRequest) (applyResult : Json) : List (String × Json) :=
  [("symbols_written", .int req.symbols.length), ("comments_written", .int req.comments.length),
    ("equates_written", .int req.equateRenames.length),
    ("equate_ref_adds_written", .int req.equateRefAdds.length),
    ("bookmarks_written", .int req.bookmarkChanges.length), ("params_written", .int req.paramRenames.length),
    ("data_items_written", .int req.dataItemChanges.length), ("func_sigs_written", .int req.funcSigChanges.length),
    ("added_type_ids", (applyResult.get? "added_type_ids").getD (.obj []))] ++
  (match applyResult.get? "applied" with
    | some applied => [("applied", applied)]
    | none => [])

/-- A checkout of the connected user that this bridge made. -/
def isBridgeCheckout (connectedUser : Option String) (bridgeProjectPath : String) (status : ItemCheckoutStatus) :
    Bool :=
  connectedUser = some status.user ∧ status.projectPath = some bridgeProjectPath

def refused : String :=
  "Checkout failed — the item is already checked out (this may be your " ++
  "own Ghidra session). Check it in or undo the checkout in Ghidra, then retry."

/-- The checkout a request works under, and whether it is a new one. -/
structure Acquired where
  checkouts : Checkouts
  coId : Int
  ownedCheckout : Bool

/-- The first bridge checkout there is, or a new one; -1 stands for none found. -/
def acquire (repo : RepositoryHandle) (connectedUser : Option String) (bridgeProjectPath : String)
    (checkouts : Checkouts) : Except String Acquired := do
  let existing := if ← repo.getCheckouts then checkouts.entries.items else []
  let coId := ((existing.find? fun entry => isBridgeCheckout connectedUser bridgeProjectPath entry.2).map
    Prod.fst).getD (-1)
  if coId = -1 then
    if ← repo.checkout then
      return {
        checkouts := checkouts.add
          { checkoutType := .exclusive
            user := repo.user
            checkoutVersion := repo.currentVersion
            projectPath := some bridgeProjectPath }
        coId := checkouts.nextId
        ownedCheckout := true }
    else throw refused
  else return { checkouts, coId, ownedCheckout := false }

/-- A failure to terminate is not reported. -/
def terminateQuietly (repo : RepositoryHandle) (checkouts : Checkouts) (coId : Int) : Checkouts :=
  match repo.terminateCheckout coId with
  | .ok () => checkouts.terminate coId
  | .error _ => checkouts

/-- The checkout is moved to the newest version; a failure to do so is not reported. -/
def updateToNewest (repo : RepositoryHandle) (checkouts : Checkouts) (coId : Int) : Checkouts :=
  match repo.getVersions with
  | .error _ => checkouts
  | .ok versions =>
    match versions.getLast? with
    | none => checkouts
    | some newVersion =>
      match repo.updateCheckoutVersion with
      | .error _ => checkouts
      | .ok () => checkouts.updateVersion coId newVersion

/-- `opCheckin`: the reply or the exception, and the checkouts afterwards. `apply` is
the importer on a database that was opened. -/
def opCheckin (session : GhidraSession) (bridgeProjectPath : String)
    (apply : CheckinRequest → Except String Json) (req : Json) (checkouts : Checkouts) :
    Except String (List (String × Json)) × Checkouts :=
  match readCheckin req with
  | none => (.error Json.typeError, checkouts)
  | some request =>
    match session.getRepo request.repo with
    | .error what => (.error what, checkouts)
    | .ok repo =>
      match acquire repo session.connectedUser bridgeProjectPath checkouts with
      | .error what => (.error what, checkouts)
      | .ok acquired =>
        match repo.openDatabase acquired.coId >>= fun _ => apply request with
        | .error what =>
          (.error what,
            if acquired.ownedCheckout then terminateQuietly repo acquired.checkouts acquired.coId
            else acquired.checkouts)
        | .ok applyResult =>
          (.ok (checkinReply request applyResult),
            terminateQuietly repo (updateToNewest repo acquired.checkouts acquired.coId) acquired.coId)

/-! ## What a request leaves behind -/

section Books
variable {session : GhidraSession} {repo : RepositoryHandle} {connectedUser : Option String}
  {bridgeProjectPath : String} {apply : CheckinRequest → Except String Json} {req : Json} {before : Checkouts}

/-- The checkout a request works under: one of the user that the bridge left behind,
or a new one where the repository lists none. -/
inductive Used (repo : RepositoryHandle) (connectedUser : Option String) (bridgeProjectPath : String)
    (before : Checkouts) : Int → Prop where
  | leftover (held : before.entries.lookup coId = some status)
      (bridge : isBridgeCheckout connectedUser bridgeProjectPath status = true) :
      Used repo connectedUser bridgeProjectPath before coId
  | new (unlisted : repo.getCheckouts = .ok true → ∀ id status, before.entries.lookup id = some status →
      isBridgeCheckout connectedUser bridgeProjectPath status = false) :
      Used repo connectedUser bridgeProjectPath before before.nextId

/-- A request that gets a checkout has either found one, and changed nothing, or
added one in the name of the session and under the bridge's project path. -/
theorem acquire_cases {acquired : Acquired}
    (acquires : acquire repo connectedUser bridgeProjectPath before = .ok acquired) :
    Used repo connectedUser bridgeProjectPath before acquired.coId ∧
      ((acquired.ownedCheckout = false ∧ acquired.checkouts = before) ∨
        (acquired.ownedCheckout = true ∧ acquired.coId = before.nextId ∧
          ∃ status, (status.user = repo.user ∧ status.projectPath = some bridgeProjectPath) ∧
            acquired.checkouts = before.add status)) := by
  unfold acquire at acquires
  cases lists : repo.getCheckouts with
  | error what =>
    rw [lists] at acquires
    cases acquires
  | ok present =>
    rw [lists] at acquires
    simp only [bind, Except.bind] at acquires
    generalize listed : (if present = true then before.entries.items else []) = existing at acquires
    cases found : existing.find? fun entry => isBridgeCheckout connectedUser bridgeProjectPath entry.2 with
    | none =>
      rw [found, Option.map_none, Option.getD_none, if_pos rfl] at acquires
      cases grants : repo.checkout with
      | error what =>
        rw [grants] at acquires
        cases acquires
      | ok granted =>
        rw [grants] at acquires
        cases granted with
        | false => cases acquires
        | true =>
          cases acquires
          refine ⟨.new fun all id status held => ?_, .inr ⟨rfl, rfl, _, ⟨rfl, rfl⟩, rfl⟩⟩
          rw [lists, Except.ok.injEq] at all
          rw [if_pos all] at listed
          subst listed
          simpa using List.find?_eq_none.mp found (id, status) (Table.mem_items.mpr held)
    | some entry =>
      have member : entry ∈ before.entries.items := by
        have inside := List.mem_of_find?_eq_some found
        rw [← listed] at inside
        split at inside
        · exact inside
        · cases inside
      have held := Table.mem_items.mp member
      have apart : entry.1 ≠ -1 := by
        have bound := before.issued entry.1 entry.2 held
        omega
      rw [found, Option.map_some, Option.getD_some, if_neg apart] at acquires
      cases acquires
      exact ⟨.leftover held (by simpa using List.find?_some found), .inl ⟨rfl, rfl⟩⟩

theorem erase_updateVersion (checkouts : Checkouts) (id : Int) (version : Int32) :
    (checkouts.updateVersion id version).entries.erase id = checkouts.entries.erase id := by
  unfold Checkouts.updateVersion
  split
  · rfl
  · exact Table.erase_set ..

/-- Whatever happens to its version, the checkout is gone in the end. -/
theorem terminated_entries {coId : Int} (terminates : repo.terminateCheckout coId = .ok ())
    (checkouts : Checkouts) :
    (terminateQuietly repo (updateToNewest repo checkouts coId) coId).entries = checkouts.entries.erase coId := by
  rw [terminateQuietly, terminates]
  show (updateToNewest repo checkouts coId).entries.erase coId = checkouts.entries.erase coId
  unfold updateToNewest
  split
  · rfl
  · split
    · rfl
    · split
      · rfl
      · exact erase_updateVersion ..

theorem nextId_not_mem (checkouts : Checkouts) : checkouts.nextId ∉ checkouts.entries := by
  intro held
  obtain ⟨status, found⟩ := Option.isSome_iff_exists.mp (AList.lookup_isSome.mpr held)
  have bound := checkouts.issued _ status found
  omega

/-- A failed request leaves the checkouts as they were, a successful one without the
one it used. -/
structure KeepsBooks (session : GhidraSession) (bridgeProjectPath : String) (before : Checkouts)
    (outcome : Except String (List (String × Json)) × Checkouts) : Prop where
  failed : ∀ what, outcome.1 = .error what → outcome.2.entries = before.entries
  succeeded : ∀ reply, outcome.1 = .ok reply →
    ∃ name repo used, session.getRepo name = .ok repo ∧ repo.openDatabase used = .ok () ∧
      Used repo session.connectedUser bridgeProjectPath before used ∧
      outcome.2.entries = before.entries.erase used

private theorem KeepsBooks.of_error {what : String} {after : Checkouts} (same : after.entries = before.entries) :
    KeepsBooks session bridgeProjectPath before (.error what, after) where
  failed := fun _ _ => same
  succeeded := by
    intro reply fails
    cases fails

/-- Every check-in request keeps the books of its item, wherever it fails. -/
theorem opCheckin_keeps_books (session : GhidraSession) (bridgeProjectPath : String)
    (apply : CheckinRequest → Except String Json) (req : Json) (before : Checkouts)
    (terminates : ∀ name repo, session.getRepo name = .ok repo → ∀ id, repo.terminateCheckout id = .ok ()) :
    KeepsBooks session bridgeProjectPath before (opCheckin session bridgeProjectPath apply req before) := by
  unfold opCheckin
  cases readCheckin req with
  | none => exact KeepsBooks.of_error rfl
  | some request =>
    dsimp only
    cases opened : session.getRepo request.repo with
    | error what => exact KeepsBooks.of_error rfl
    | ok repo =>
      dsimp only
      cases acquires : acquire repo session.connectedUser bridgeProjectPath before with
      | error what => exact KeepsBooks.of_error rfl
      | ok acquired =>
        dsimp only
        obtain ⟨used, taken⟩ := acquire_cases acquires
        have ends := terminates request.repo repo opened acquired.coId
        -- Taking the checkout out of the acquired table is taking it out of the first one.
        have erased : acquired.checkouts.entries.erase acquired.coId = before.entries.erase acquired.coId := by
          rcases taken with ⟨_, same⟩ | ⟨_, new, status, _, added⟩
          · rw [same]
          · rw [added, new]
            exact Table.erase_set ..
        cases writes : repo.openDatabase acquired.coId >>= fun _ => apply request with
        | error what =>
          refine KeepsBooks.of_error ?_
          rcases taken with ⟨reused, same⟩ | ⟨owned, new, _⟩
          · rw [reused, same]
            rfl
          · rw [if_pos owned, terminateQuietly, ends]
            show acquired.checkouts.entries.erase acquired.coId = before.entries
            rw [erased, new, Table.erase_of_not_mem (nextId_not_mem before)]
        | ok applyResult =>
          have opens : repo.openDatabase acquired.coId = .ok () := by
            cases opening : repo.openDatabase acquired.coId with
            | error what =>
              rw [opening] at writes
              cases writes
            | ok _ => rfl
          refine ⟨?_, fun _ _ => ?_⟩
          · intro what fails
            cases fails
          · exact ⟨request.repo, repo, acquired.coId, opened, opens, used,
              (terminated_entries ends _).trans erased⟩

theorem leftover_released_beside_own_checkout :
    let path := "host::binja-ghidra"
    let repo : RepositoryHandle :=
      { getCheckouts := .ok true
        checkout := .ok false
        user := "ana"
        currentVersion := 3
        openDatabase := fun _ => .ok ()
        getVersions := .ok [1, 2, 3, 4]
        updateCheckoutVersion := .ok ()
        terminateCheckout := fun _ => .ok () }
    let session : GhidraSession := { openRepos := [("fw", repo)], connectedUser := some "ana" }
    let before : Checkouts :=
      (Checkouts.add ∅ ⟨.normal, "ana", 3, some "host::/home/ana/project"⟩).add ⟨.exclusive, "ana", 3, some path⟩
    let req := Json.obj [("repo", .str "fw"), ("item", .str "a.out")]
    let outcome := opCheckin session path (fun _ => .ok (.obj [])) req before
    KeepsBooks session path before outcome ∧
      outcome.2.entries.items = [(1, ⟨.normal, "ana", 3, some "host::/home/ana/project"⟩)] := by
  intro path repo session before req outcome
  refine ⟨opCheckin_keeps_books session path _ req before ?_, by decide +kernel⟩
  intro name found opens id
  by_cases here : name = "fw"
  · subst here
    cases opens
    rfl
  · have missing : List.lookup name session.openRepos = none := by
      simp [session, List.lookup_cons, beq_false_of_ne here]
    rw [GhidraSession.getRepo, missing] at opens
    cases opens

/-! ## Checkouts of others -/

theorem lookup_terminateQuietly {coId probe : Int} (apart : probe ≠ coId) (checkouts : Checkouts) :
    (terminateQuietly repo checkouts coId).entries.lookup probe = checkouts.entries.lookup probe := by
  unfold terminateQuietly
  split
  · exact (Table.lookup_erase_eq ..).trans (if_neg apart)
  · rfl

theorem lookup_updateToNewest {coId probe : Int} (apart : probe ≠ coId) (checkouts : Checkouts) :
    (updateToNewest repo checkouts coId).entries.lookup probe = checkouts.entries.lookup probe := by
  unfold updateToNewest
  split
  · rfl
  · split
    · rfl
    · split
      · rfl
      · unfold Checkouts.updateVersion
        split
        · rfl
        · exact (Table.lookup_set ..).trans (if_neg apart)

theorem Used.apart {coId id : Int} {status : ItemCheckoutStatus}
    (used : Used repo connectedUser bridgeProjectPath before coId) (held : before.entries.lookup id = some status)
    (foreign : isBridgeCheckout connectedUser bridgeProjectPath status = false) : id ≠ coId := by
  rintro rfl
  cases used with
  | leftover found bridge =>
    rw [held, Option.some.injEq] at found
    rw [← found, foreign] at bridge
    cases bridge
  | new =>
    have bound := before.issued _ status held
    omega

/-- A checkout the bridge did not make for the user is left as it is, whatever the
repository answers. -/
theorem opCheckin_foreign {id : Int} {status : ItemCheckoutStatus} (held : before.entries.lookup id = some status)
    (foreign : isBridgeCheckout session.connectedUser bridgeProjectPath status = false) :
    (opCheckin session bridgeProjectPath apply req before).2.entries.lookup id = some status := by
  unfold opCheckin
  cases readCheckin req with
  | none => exact held
  | some request =>
    dsimp only
    cases session.getRepo request.repo with
    | error what => exact held
    | ok repo =>
      dsimp only
      cases acquires : acquire repo session.connectedUser bridgeProjectPath before with
      | error what => exact held
      | ok acquired =>
        dsimp only
        obtain ⟨used, taken⟩ := acquire_cases acquires
        have apart := used.apart held foreign
        have still : acquired.checkouts.entries.lookup id = some status := by
          rcases taken with ⟨_, same⟩ | ⟨_, new, other, _, added⟩
          · rw [same]
            exact held
          · rw [added, Checkouts.add, Table.lookup_set, if_neg (new ▸ apart)]
            exact held
        cases repo.openDatabase acquired.coId >>= fun _ => apply request with
        | error what =>
          dsimp only
          split
          · rw [lookup_terminateQuietly apart]
            exact still
          · exact still
        | ok applyResult =>
          rw [lookup_terminateQuietly apart, lookup_updateToNewest apart]
          exact still

/-- A check-in request with the session it comes in. -/
structure Call where
  session : GhidraSession
  bridgeProjectPath : String
  apply : CheckinRequest → Except String Json
  req : Json

def runCalls (calls : List Call) (before : Checkouts) : Checkouts :=
  calls.foldl (fun checkouts call =>
    (opCheckin call.session call.bridgeProjectPath call.apply call.req checkouts).2) before

/-- No number of check-ins ends a checkout that is not the bridge's own. -/
theorem foreign_checkout_kept {calls : List Call} {id : Int} {status : ItemCheckoutStatus}
    (held : before.entries.lookup id = some status)
    (foreign : ∀ call ∈ calls, isBridgeCheckout call.session.connectedUser call.bridgeProjectPath status = false) :
    (runCalls calls before).entries.lookup id = some status := by
  induction calls generalizing before with
  | nil => exact held
  | cons call rest ih =>
    refine ih (opCheckin_foreign held (foreign call List.mem_cons_self)) ?_
    exact fun later member => foreign later (List.mem_cons_of_mem call member)

end Books

end BridgeConnection
end GhidraBridge
