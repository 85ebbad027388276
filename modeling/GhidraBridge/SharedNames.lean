import GhidraBridge.SymbolImport
import GhidraBridge.ListingApplier
import GhidraBridge.Lib.Runs

/-! The names of one program between all who work on it. Each user has a view with a
connection beside it; an import or a restore reads an export and stores baselines
(`ProjectPanel.cpp`, `importItem`, `doCheckin`), a review collects what differs from them, a check-in sends
what was collected, and a success clears them. Nothing on the server compares a rename
with what others have sent since. -/
namespace GhidraBridge.SharedNames
open SyncEngine hiding applySymbol
open Lib Lib.Runs CheckinState SymbolImport ProgramApplier

/-! ## The users -/

/-- How baselines were stored: from which view, before it, and which export. -/
inductive Sync where
  | imported (view : BinaryView) (data : GhidraDbExport)
  | restored (view : BinaryView) (data : GhidraDbExport)

namespace Sync

def data : Sync → GhidraDbExport
  | imported _ data | restored _ data => data

/-- The view it left. -/
def view : Sync → BinaryView
  | imported view data => (applyToView view data).1
  | restored view _ => view

def result : Sync → SyncResult
  | imported view data => (applyToView view data).2
  | restored view data => buildWritebackMaps view data

def rebase : Sync → UInt64
  | imported view data | restored view data => rebaseOf view data

/-- The view shows another name at the address than the one recorded: an import met a name
there that somebody chose, and a restore leaves the view as it is. -/
def Stale : Sync → UInt64 → Prop
  | imported view data, addr => ¬LastNameShown view data addr
  | restored view data, addr =>
    ∃ name, view.shownName addr = some name ∧ (namesAt (rebaseOf view data) data.symbols addr).getLast? ≠ some name

end Sync

/-- What a review starts from: the view and the baselines as they are when its preview is
collected. How the baselines were stored, and where the view has shown another name since,
is history. -/
structure Review where
  view : BinaryView
  checkinState : CheckinState
  sync : Option Sync
  renamed : UInt64 → Bool

namespace Review
variable (c : Review)

def preview : GhidraCheckinPreview := c.checkinState.collectCheckinChanges c.view

end Review

/-- An export that was read from the server, for an import or for a restore. -/
structure Fetched where
  data : GhidraDbExport
  restoring : Bool

def Fetched.sync (f : Fetched) (view : BinaryView) : Sync :=
  if f.restoring then .restored view f.data else .imported view f.data

theorem Fetched.sync_data (f : Fetched) (view : BinaryView) : (f.sync view).data = f.data := by
  unfold Fetched.sync
  split <;> rfl

/-- A user, with the exports that were read and not yet used, and the previews that were
collected and not yet sent. -/
structure User where
  view : BinaryView := {}
  conn : GhidraConnection := {}
  sync : Option Sync := none
  renamed : UInt64 → Bool := fun _ => false
  fetched : List Fetched := []
  reviews : List Review := []

namespace User
variable (u : User)

def review : Review := ⟨u.view, u.conn.checkinState, u.sync, u.renamed⟩

/-- The connection to the bridge or the server comes or goes. -/
def links (bridge server : Bool) : User :=
  { u with conn := { u.conn with bridgeConnected := bridge, serverConnected := server } }

/-- New baselines, made in one of the two ways. -/
def syncs (sync : Sync) (repo folder item : String) : User :=
  { view := sync.view
    conn := { u.conn with checkinState := store sync.result repo folder item }
    sync := some sync
    fetched := u.fetched
    reviews := u.reviews }

/-- An export is read; a restore asks before whether there is a state. -/
def fetches (data : GhidraDbExport) (restoring : Bool) : Option User :=
  if restoring && u.conn.checkinState.hasCheckinState then none
  else some { u with fetched := u.fetched ++ [⟨data, restoring⟩] }

/-- The export at a place is used. -/
def stores (k : Nat) (repo folder item : String) : Option User :=
  u.fetched[k]?.map fun f => { u.syncs (f.sync u.view) repo folder item with fetched := u.fetched.eraseIdx k }

/-- The view is edited, in whatever way. -/
def edits (view : BinaryView) : User :=
  { u with
    view
    renamed := fun addr => u.renamed addr || view.shownName addr ≠ u.view.shownName addr }

/-- What `checkin` asks for before it sends anything. -/
def sends : Bool := u.conn.bridgeConnected && u.conn.serverConnected && u.conn.checkinState.hasCheckinState

/-- A preview is only reviewed where there is something in it. -/
def collects : Option User :=
  if u.review.preview.empty then none else some { u with reviews := u.reviews ++ [u.review] }

/-- The symbols array of the request for a review. -/
def symbolsSent (c : Review) : List Json :=
  match (CheckinJson.buildCheckinJson (u.conn.checkinState.rebase u.view) c.preview
      u.conn.checkinState.addrToOriginalFuncComment u.conn.checkinState.addrToCommentField).lookup "symbols" with
  | some (.arr entries) => entries
  | _ => []

/-- `checkin` with what comes back, and the panel's clearing of the state after a success. -/
def checksIn (c : Review) (comment : String) (reply : Except String Json) : Bool × User :=
  let done := u.conn.checkin u.view c.preview comment fun _ => reply
  if done.1.success then (true, { u with conn := { done.2 with checkinState := .clear }, sync := none })
  else (false, { u with conn := done.2 })

/-- The review at a place has been sent. -/
def reviewed (k : Nat) : User := { u with reviews := u.reviews.eraseIdx k }

end User

/-! ## The program they share -/

structure Shared (P : Type) where
  program : P
  users : List User

inductive Act where
  | links (i : Nat) (bridge server : Bool)
  | fetches (i : Nat) (restoring : Bool)
  | stores (i k : Nat) (repo folder item : String)
  | edits (i : Nat) (view : BinaryView)
  | collects (i : Nat)
  /-- A review is confirmed or cancelled later. The request may be applied without an answer
  that says so. -/
  | checksIn (i k : Nat) (comment : String) (applied : Bool) (reply : Except String Json)
  | cancels (i k : Nat)

section
variable {space : AddressSpace} {P : Type} (lib : ProgramLibrary space P) (exportOf : P → GhidraDbExport)

def Shared.setUser (s : Shared P) (i : Nat) (u : User) : Shared P := { s with users := s.users.set i u }

/-- The program after the symbols array of a user's request. -/
def Shared.applies (s : Shared P) (u : User) (c : Review) : Option P :=
  (applySymbols lib s.program (u.symbolsSent c)).map Counted.program

def Shared.step (s : Shared P) : Act → Option (Shared P)
  | .links i bridge server => s.users[i]?.map fun u => s.setUser i (u.links bridge server)
  | .fetches i restoring => s.users[i]?.bind fun u => (u.fetches (exportOf s.program) restoring).map (s.setUser i)
  | .stores i k repo folder item => s.users[i]?.bind fun u => (u.stores k repo folder item).map (s.setUser i)
  | .edits i view => s.users[i]?.map fun u => s.setUser i (u.edits view)
  | .collects i => s.users[i]?.bind fun u => u.collects.map (s.setUser i)
  | .checksIn i k comment applied reply =>
    s.users[i]?.bind fun u =>
      u.reviews[k]?.bind fun c =>
        if applied then
          if u.sends then
            (s.applies lib u c).map fun program =>
              { program, users := s.users.set i ((u.checksIn c comment reply).2.reviewed k) }
          else none
        -- A bridge that has applied nothing does not say that it has.
        else if (u.checksIn c comment reply).1 then none
        else some (s.setUser i ((u.checksIn c comment reply).2.reviewed k))
  | .cancels i k => s.users[i]?.map fun u => s.setUser i (u.reviewed k)

def Step (s : Shared P) (act : Act) (next : Shared P) : Prop := s.step lib exportOf act = some next

/-- What is relied on of Ghidra: a rename names one symbol, a label beside a named symbol
leaves its name, a named symbol can be found, and an export has each symbol once, under
its name. -/
structure NameLaws (symbolName : P → Int64 → Option String) : Prop where
  found : ∀ {p key}, (symbolName p key).isSome → lib.hasSymbol p key = true
  setName : ∀ {p p' key name}, lib.setName p key name = some p' →
    ∀ other, symbolName p' other = if other = key then some name else symbolName p other
  createLabel : ∀ {p p' addr name}, lib.createLabel p addr name = some p' →
    ∀ key, (symbolName p key).isSome → symbolName p' key = symbolName p key
  keys : ∀ p, ((exportOf p).symbols.map GhidraSymbol.key).Nodup
  exported : ∀ p, ∀ sym ∈ (exportOf p).symbols, symbolName p sym.key = some sym.name

/-- A name that Ghidra takes wherever it finds the symbol. -/
def Taken (key : Int64) (name : String) : Prop :=
  name ≠ "" ∧ ∀ p, lib.hasSymbol p key = true → lib.setName p key name ≠ none

end

/-! ## What a request does to a name -/

section Requests
variable {space : AddressSpace} {P : Type} {lib : ProgramLibrary space P} {exportOf : P → GhidraDbExport}
  {symbolName : P → Int64 → Option String}

/-- A rename that is sent sets the name, or it is refused. -/
theorem applySymbol_rename {applied next : Counted P} {r : SymbolRename}
    (ran : applySymbol lib applied (CheckinJson.renameEntry r) = some next) :
    lib.setName applied.program r.key r.newName = some next.program ∨
      (next.program = applied.program ∧ (lib.hasSymbol applied.program r.key = true → ¬Taken lib r.key r.newName)) := by
  have object : (CheckinJson.renameEntry r).isObject = true := rfl
  have name : (CheckinJson.renameEntry r).getStr "name" "" = some r.newName := rfl
  have key : (CheckinJson.renameEntry r).get? "key" = some (int64Json r.key) := rfl
  have read : (int64Json r.key).getAsLong = some r.key := Json.getAsLong_toInt r.key
  rw [applySymbol, object, name, key] at ran
  simp only [Option.bind_eq_bind, Option.bind_some, read, Bool.true_eq_false, if_false] at ran
  split at ran
  · rename_i empty
    cases ran
    exact .inr ⟨rfl, fun _ taken => taken.1 empty⟩
  · split at ran
    · rename_i missing
      cases ran
      exact .inr ⟨rfl, fun there => absurd there (by rw [missing]; exact Bool.false_ne_true)⟩
    · cases named : lib.setName applied.program r.key r.newName with
      | some program =>
        rw [named] at ran
        cases ran
        exact .inl rfl
      | none =>
        rw [named] at ran
        cases ran
        exact .inr ⟨rfl, fun found taken => taken.2 _ found named⟩

/-- A new symbol becomes a label, or nothing. -/
theorem applySymbol_newSymbol {rebase : UInt64} {applied next : Counted P} {sent : NewSymbol}
    (ran : applySymbol lib applied (CheckinJson.newSymbolEntry rebase sent) = some next) :
    next.program = applied.program ∨ ∃ addr, lib.createLabel applied.program addr sent.name = some next.program := by
  have object : (CheckinJson.newSymbolEntry rebase sent).isObject = true := rfl
  have name : (CheckinJson.newSymbolEntry rebase sent).getStr "name" "" = some sent.name := rfl
  have key : (CheckinJson.newSymbolEntry rebase sent).get? "key" = none := rfl
  have va : (CheckinJson.newSymbolEntry rebase sent).get? "va" = some (vaJson rebase sent.addr) := rfl
  have read : (vaJson rebase sent.addr).getAsString.bind parseHexLong = some (sent.addr - rebase) :=
    parseHexLong_toHex _
  rw [applySymbol, object, name, key, va] at ran
  simp only [Option.bind_eq_bind, Option.bind_some, read, Bool.true_eq_false, if_false] at ran
  split at ran
  · cases ran
    exact .inl rfl
  · cases inside : space.getAddress (sent.addr - rebase) with
    | none =>
      rw [inside] at ran
      cases ran
      exact .inl rfl
    | some addr =>
      rw [inside] at ran
      simp only [Option.elim, labelAt, Counted.attempt] at ran
      cases labelled : lib.createLabel applied.program addr sent.name with
      | none =>
        rw [labelled] at ran
        cases ran
        exact .inl rfl
      | some program =>
        rw [labelled] at ran
        cases ran
        exact .inr ⟨addr, labelled⟩

/-- A request is its renames and then its new symbols. -/
theorem applies_eq_some {s : Shared P} {u : User} {c : Review} {program : P} (ran : s.applies lib u c = some program) :
    ∃ renamed final : Counted P,
      (c.preview.renames.map CheckinJson.renameEntry).foldlM (applySymbol lib) { program := s.program } = some renamed ∧
      (c.preview.newSymbols.map (CheckinJson.newSymbolEntry (u.conn.checkinState.rebase u.view))).foldlM
        (applySymbol lib) renamed = some final ∧ final.program = program := by
  obtain ⟨final, all, rfl⟩ := Option.map_eq_some_iff.mp ran
  have sent : u.symbolsSent c = c.preview.renames.map CheckinJson.renameEntry ++
      c.preview.newSymbols.map (CheckinJson.newSymbolEntry (u.conn.checkinState.rebase u.view)) := rfl
  rw [applySymbols, sent, List.foldlM_append] at all
  obtain ⟨renamed, first, second⟩ := Option.bind_eq_some_iff.mp all
  exact ⟨renamed, final, first, second, rfl⟩

section
variable (laws : NameLaws lib exportOf symbolName)
include laws

/-- A rename leaves the names of all other symbols. -/
theorem applySymbol_rename_other {applied next : Counted P} {r : SymbolRename} {key : Int64} (other : r.key ≠ key)
    (ran : applySymbol lib applied (CheckinJson.renameEntry r) = some next) :
    symbolName next.program key = symbolName applied.program key := by
  rcases applySymbol_rename ran with named | ⟨same, -⟩
  · rw [laws.setName named, if_neg (Ne.symm other)]
  · rw [same]

theorem renames_leave {applied final : Counted P} {renames : List SymbolRename} {key : Int64}
    (none : ∀ r ∈ renames, r.key ≠ key)
    (ran : (renames.map CheckinJson.renameEntry).foldlM (applySymbol lib) applied = some final) :
    symbolName final.program key = symbolName applied.program key := by
  refine Fold.foldlM_keeps (P := fun s => symbolName s.program key = symbolName applied.program key) ?_ ran rfl
  intro s entry next member before stepped
  obtain ⟨r, listed, rfl⟩ := List.mem_map.mp member
  exact (applySymbol_rename_other laws (none r listed) stepped).trans before

theorem newSymbols_leave {rebase : UInt64} {applied final : Counted P} {sent : List NewSymbol} {key : Int64}
    (named : (symbolName applied.program key).isSome)
    (ran : (sent.map (CheckinJson.newSymbolEntry rebase)).foldlM (applySymbol lib) applied = some final) :
    symbolName final.program key = symbolName applied.program key := by
  refine Fold.foldlM_keeps (P := fun s => symbolName s.program key = symbolName applied.program key) ?_ ran rfl
  intro s entry next member before stepped
  obtain ⟨label, -, rfl⟩ := List.mem_map.mp member
  rcases applySymbol_newSymbol stepped with same | ⟨addr, labelled⟩
  · rw [same, before]
  · rw [laws.createLabel labelled key (by rw [before]; exact named), before]

/-- Of the renames that are sent, at most one is about a symbol. -/
theorem renames_reach {applied final : Counted P} {renames : List SymbolRename} {r : SymbolRename}
    (named : (symbolName applied.program r.key).isSome) (sent : r ∈ renames)
    (once : renames.Pairwise fun first second => first.key ≠ second.key)
    (ran : (renames.map CheckinJson.renameEntry).foldlM (applySymbol lib) applied = some final) :
    symbolName final.program r.key = some r.newName ∨
      (¬Taken lib r.key r.newName ∧ symbolName final.program r.key = symbolName applied.program r.key) := by
  induction renames generalizing applied with
  | nil => cases sent
  | cons first rest ih =>
    obtain ⟨new, others⟩ := List.pairwise_cons.mp once
    rw [List.map_cons, List.foldlM_cons] at ran
    obtain ⟨next, stepped, later⟩ := Option.bind_eq_some_iff.mp ran
    rcases List.mem_cons.mp sent with rfl | inRest
    · have kept := renames_leave laws (fun other there => (new other there).symm) later
      rcases applySymbol_rename stepped with set | ⟨same, refused⟩
      · left
        rw [kept, laws.setName set, if_pos rfl]
      · right
        exact ⟨refused (laws.found named), by rw [kept, same]⟩
    · have before := applySymbol_rename_other laws (new r inRest) stepped
      rw [← before] at named ⊢
      exact ih named inRest others later

theorem applySymbol_keeps_named {applied next : Counted P} {r : SymbolRename} {key : Int64}
    (named : (symbolName applied.program key).isSome)
    (ran : applySymbol lib applied (CheckinJson.renameEntry r) = some next) : (symbolName next.program key).isSome := by
  rcases applySymbol_rename ran with set | ⟨same, -⟩
  · rw [laws.setName set]
    split
    · rfl
    · exact named
  · rw [same]
    exact named

/-- A named symbol stays named. -/
theorem applies_named {s : Shared P} {u : User} {c : Review} {program : P} {key : Int64}
    (ran : s.applies lib u c = some program)
    (named : (symbolName s.program key).isSome) : (symbolName program key).isSome := by
  obtain ⟨renamed, final, first, second, rfl⟩ := applies_eq_some ran
  have between : (symbolName renamed.program key).isSome := by
    refine Fold.foldlM_keeps (P := fun s => (symbolName s.program key).isSome) ?_ first named
    intro s entry next member before stepped
    obtain ⟨r, -, rfl⟩ := List.mem_map.mp member
    exact applySymbol_keeps_named laws before stepped
  rw [newSymbols_leave laws between second]
  exact between

end

end Requests

/-! ## What a sync leaves -/

namespace Sync
variable (sync : Sync)

theorem result_addrToKey : sync.result.addrToKey =
    Table.writeAll ∅ (fun sym => sym.addr + sync.rebase) GhidraSymbol.key sync.data.symbols := by
  cases sync with
  | imported view data => exact applyToView_addrToKey view data
  | restored view data => exact buildWritebackMaps_addrToKey view data

theorem lookup_baseline (addr : UInt64) :
    sync.result.addrToOriginalName.lookup addr = (namesAt sync.rebase sync.data.symbols addr).getLast? := by
  have written : sync.result.addrToOriginalName =
      Table.writeAll ∅ (fun sym => sym.addr + sync.rebase) GhidraSymbol.name sync.data.symbols := by
    cases sync with
    | imported view data => exact applyToView_addrToOriginalName view data
    | restored view data => exact buildWritebackMaps_addrToOriginalName view data
  rw [written, Table.lookup_writeAll_eq_getLast?, AList.lookup_empty, Option.or_none]
  rfl

variable {sync}

/-- A key is that of a record at its address. -/
theorem of_lookup_key {addr : UInt64} {key : Int64} (keyed : sync.result.addrToKey.lookup addr = some key) :
    ∃ sym ∈ sync.data.symbols, sym.addr + sync.rebase = addr ∧ sym.key = key := by
  rw [result_addrToKey, Table.lookup_writeAll_eq_getLast?, AList.lookup_empty, Option.or_none] at keyed
  obtain ⟨sym, member, same⟩ := List.mem_map.mp (List.mem_of_getLast? keyed)
  obtain ⟨listed, here⟩ := List.mem_filter.mp member
  exact ⟨sym, listed, by simpa using here, same⟩

/-- A key is recorded for one address. -/
theorem lookup_key_unique (once : (sync.data.symbols.map GhidraSymbol.key).Nodup) {addr other : UInt64} {key : Int64}
    (here : sync.result.addrToKey.lookup addr = some key) (there : sync.result.addrToKey.lookup other = some key) :
    addr = other := by
  obtain ⟨sym, member, rfl, rfl⟩ := of_lookup_key here
  obtain ⟨sym', member', rfl, same⟩ := of_lookup_key there
  rw [List.inj_on_of_nodup_map once member member' same.symm]

/-- Where there is a record, a stale name is one shown beside the recorded one. -/
theorem stale_iff {addr : UInt64} (recorded : ∃ sym ∈ sync.data.symbols, sym.addr + sync.rebase = addr) :
    sync.Stale addr ↔
      ∃ name, sync.view.shownName addr = some name ∧ name ≠ textAt sync.result.addrToOriginalName addr := by
  have listed := namesAt_ne_nil.mpr recorded
  obtain ⟨last, ends⟩ := Option.isSome_iff_exists.mp (List.getLast?_isSome.mpr listed)
  have text : textAt sync.result.addrToOriginalName addr = last := by
    rw [textAt, lookup_baseline, ends, Option.getD_some]
  rw [text]
  cases sync with
  | imported view data =>
    have shown : (applyToView view data).1.shownName addr ≠ none := by
      rw [applyToView_shownName, Settle.foldl_write]
      have ended : (namesAt (rebaseOf view data) data.symbols addr).getLast? = some last := ends
      rw [ended]
      simp
    obtain ⟨name, shows⟩ := Option.ne_none_iff_exists'.mp shown
    have baseline : (applyToView view data).2.addrToOriginalName.lookup addr = some last :=
      (lookup_baseline (.imported view data) addr).trans ends
    rw [Stale, ← shown_eq_baseline_iff listed, shows, baseline, Sync.view, shows]
    simp
  | restored view data =>
    have ended : (namesAt (rebaseOf view data) data.symbols addr).getLast? = some last := ends
    rw [Stale, ended, Sync.view]
    refine exists_congr fun name => and_congr_right fun _ => ?_
    rw [ne_eq, Option.some.injEq, eq_comm]

end Sync

/-! ## What is kept of a sync -/

/-- The baselines are those of the last sync, and where nothing was renamed since, the view
shows the same; every symbol of the export still has a name in the program. -/
structure Held {P : Type} (symbolName : P → Int64 → Option String) (program : P) (c : Review) : Prop where
  unsynced : c.sync = none → c.checkinState.addrToKey = ∅
  keys : ∀ sync, c.sync = some sync → c.checkinState.addrToKey = sync.result.addrToKey
  names : ∀ sync, c.sync = some sync → c.checkinState.addrToOriginalName = sync.result.addrToOriginalName
  shown : ∀ sync, c.sync = some sync → ∀ addr, c.renamed addr = false → c.view.shownName addr = sync.view.shownName addr
  once : ∀ sync, c.sync = some sync → (sync.data.symbols.map GhidraSymbol.key).Nodup
  known : ∀ sync, c.sync = some sync → ∀ sym ∈ sync.data.symbols, (symbolName program sym.key).isSome

section Kept
variable {P : Type} {symbolName : P → Int64 → Option String} {program : P} {u : User} {c : Review}

/-- A check-in leaves the user as before, or without a state. -/
theorem checksIn_cases (u : User) (c : Review) (comment : String) (reply : Except String Json) :
    u.checksIn c comment reply = (false, u) ∨
      u.checksIn c comment reply =
        (true, { u with conn := { u.conn with checkinState := .clear }, sync := none }) := by
  unfold User.checksIn
  rcases CheckinAtomicity.checkin_cases u.conn u.view c.preview comment fun _ => reply with
    ⟨failed, same⟩ | ⟨succeeded, -, types, -, after⟩
  · left
    dsimp only
    rw [failed, same]
    rfl
  · right
    dsimp only
    rw [succeeded, after]
    rfl

/-- The state that is used asks the same as the sync did. -/
theorem Held.rename_iff (held : Held symbolName program c) {sync : Sync} (synced : c.sync = some sync)
    {addr : UInt64} {key : Int64} (keyed : c.checkinState.addrToKey.lookup addr = some key)
    (kept : c.renamed addr = false) :
    (∃ r ∈ collectRenames c.checkinState c.view, r.addr = addr) ↔ sync.Stale addr := by
  have there : addr ∈ c.checkinState.addrToKey := AList.lookup_isSome.mp (by rw [keyed, Option.isSome_some])
  rw [held.keys sync synced] at keyed
  obtain ⟨sym, member, here, -⟩ := Sync.of_lookup_key keyed
  rw [exists_rename_iff, Sync.stale_iff ⟨sym, member, here⟩, held.shown sync synced addr kept,
    held.names sync synced]
  exact and_iff_right there

/-- No symbol is renamed twice in a request. -/
theorem Held.renames_once (held : Held symbolName program c) {sync : Sync} (synced : c.sync = some sync) :
    (collectRenames c.checkinState c.view).Pairwise fun first second => first.key ≠ second.key := by
  have places : (collectRenames c.checkinState c.view).Pairwise fun first second => first.addr ≠ second.addr := by
    refine List.Pairwise.filterMap _ ?_ c.checkinState.addrToKey.items_pairwise
    intro entry other apart r made r' made'
    obtain ⟨-, -, -, rfl⟩ := BaselineMoves.renameAt_eq_some.mp made
    obtain ⟨-, -, -, rfl⟩ := BaselineMoves.renameAt_eq_some.mp made'
    exact apart
  refine places.imp_of_mem fun {r r'} member member' apart same => apart ?_
  have here := (BaselineMoves.mem_collectRenames.mp member).1
  have there := (BaselineMoves.mem_collectRenames.mp member').1
  rw [held.keys sync synced] at here there
  rw [same] at here
  exact Sync.lookup_key_unique (held.once sync synced) here there

theorem Held.edits (held : Held symbolName program u.review) (view : BinaryView) :
    Held symbolName program (u.edits view).review where
  unsynced := held.unsynced
  keys := held.keys
  names := held.names
  shown sync synced addr kept := by
    obtain ⟨before, same⟩ : u.renamed addr = false ∧ view.shownName addr = u.view.shownName addr := by
      simpa [User.edits, User.review] using kept
    exact same.trans (held.shown sync synced addr before)
  once := held.once
  known := held.known

/-- The program may change as long as what has a name keeps one. -/
theorem Held.later {later : P} (held : Held symbolName program c)
    (stay : ∀ key, (symbolName program key).isSome → (symbolName later key).isSome) : Held symbolName later c :=
  ⟨held.unsynced, held.keys, held.names, held.shown, held.once,
    fun sync synced sym member => stay _ (held.known sync synced sym member)⟩

/-- An export of the program, now or before: each symbol once, and under a key that still
has a name. -/
structure Known {P : Type} (symbolName : P → Int64 → Option String) (program : P) (data : GhidraDbExport) : Prop where
  once : (data.symbols.map GhidraSymbol.key).Nodup
  named : ∀ sym ∈ data.symbols, (symbolName program sym.key).isSome

theorem held_synced (u : User) {sync : Sync} (known : Known symbolName program sync.data) (repo folder item : String) :
    Held symbolName program (u.syncs sync repo folder item).review where
  unsynced := nofun
  keys := by
    rintro _ ⟨⟩
    rfl
  names := by
    rintro _ ⟨⟩
    rfl
  shown := by
    rintro _ ⟨⟩ addr -
    rfl
  once := by
    rintro _ ⟨⟩
    exact known.once
  known := by
    rintro _ ⟨⟩
    exact known.named

/-- What is kept of a user, as it is and as it was reviewed. -/
structure AllHeld (symbolName : P → Int64 → Option String) (program : P) (u : User) : Prop where
  current : Held symbolName program u.review
  fetched : ∀ f ∈ u.fetched, Known symbolName program f.data
  reviews : ∀ c ∈ u.reviews, Held symbolName program c
  filled : ∀ c ∈ u.reviews, c.preview.empty = false

theorem AllHeld.later {later : P} (held : AllHeld symbolName program u)
    (stay : ∀ key, (symbolName program key).isSome → (symbolName later key).isSome) : AllHeld symbolName later u :=
  ⟨held.current.later stay,
    fun f member => ⟨(held.fetched f member).once, fun sym listed => stay _ ((held.fetched f member).named sym listed)⟩,
    fun c member => (held.reviews c member).later stay, held.filled⟩

theorem AllHeld.reviewed (held : AllHeld symbolName program u) (k : Nat) : AllHeld symbolName program (u.reviewed k) :=
  ⟨held.current, held.fetched, fun c member => held.reviews c (List.mem_of_mem_eraseIdx member),
    fun c member => held.filled c (List.mem_of_mem_eraseIdx member)⟩

theorem AllHeld.collects (held : AllHeld symbolName program u) {next : User} (collected : u.collects = some next) :
    AllHeld symbolName program next := by
  obtain ⟨filled, did⟩ := Option.ite_none_left_eq_some.mp collected
  cases did
  refine ⟨held.current, held.fetched, fun c member => ?_, fun c member => ?_⟩
  · rcases List.mem_append.mp member with before | new
    · exact held.reviews c before
    · cases List.mem_singleton.mp new
      exact held.current
  · rcases List.mem_append.mp member with before | new
    · exact held.filled c before
    · cases List.mem_singleton.mp new
      simpa using filled

theorem AllHeld.fetches {data : GhidraDbExport} (held : AllHeld symbolName program u)
    (known : Known symbolName program data) {restoring : Bool} {next : User}
    (read : u.fetches data restoring = some next) :
    AllHeld symbolName program next := by
  obtain ⟨-, did⟩ := Option.ite_none_left_eq_some.mp read
  cases did
  refine { held with current := { held.current with }, fetched := fun f member => ?_ }
  rcases List.mem_append.mp member with before | new
  · exact held.fetched f before
  · cases List.mem_singleton.mp new
    exact known

theorem AllHeld.stores (held : AllHeld symbolName program u) {k : Nat} {repo folder item : String} {next : User}
    (used : u.stores k repo folder item = some next) : AllHeld symbolName program next := by
  obtain ⟨f, there, rfl⟩ := Option.map_eq_some_iff.mp used
  have known := held.fetched f (List.mem_of_getElem? there)
  rw [← f.sync_data u.view] at known
  exact
    { held with
      current := { held_synced u known repo folder item with }
      fetched := fun other member => held.fetched other (List.mem_of_mem_eraseIdx member) }

theorem AllHeld.checksIn (held : AllHeld symbolName program u) (c : Review) (comment : String)
    (reply : Except String Json) : AllHeld symbolName program (u.checksIn c comment reply).2 := by
  rcases checksIn_cases u c comment reply with same | cleared
  · rw [same]
    exact held
  · rw [cleared]
    exact ⟨⟨fun _ => rfl, nofun, nofun, nofun, nofun, nofun⟩, held.fetched, held.reviews, held.filled⟩

end Kept

/-! ## Every run -/

/-- No one has imported anything. -/
def start {P : Type} (program : P) (views : List BinaryView) : Shared P :=
  { program, users := views.map fun view => { view } }

section Runs
variable {space : AddressSpace} {P : Type} {lib : ProgramLibrary space P} {exportOf : P → GhidraDbExport}
  {symbolName : P → Int64 → Option String} (laws : NameLaws lib exportOf symbolName)

def EveryHeld (symbolName : P → Int64 → Option String) (s : Shared P) : Prop :=
  ∀ u ∈ s.users, AllHeld symbolName s.program u

theorem start_held (program : P) (views : List BinaryView) : EveryHeld symbolName (start program views) := by
  intro u member
  obtain ⟨view, -, rfl⟩ := List.mem_map.mp member
  exact ⟨⟨fun _ => rfl, nofun, nofun, nofun, nofun, nofun⟩, nofun, nofun, nofun⟩

theorem EveryHeld.setUser {s : Shared P} (held : EveryHeld symbolName s) {i : Nat} {u : User}
    (changed : AllHeld symbolName s.program u) : EveryHeld symbolName (s.setUser i u) := by
  intro other member
  rcases List.mem_or_eq_of_mem_set member with before | rfl
  · exact held other before
  · exact changed

include laws in
theorem step_held {s next : Shared P} {act : Act} (held : EveryHeld symbolName s)
    (moved : Step lib exportOf s act next) : EveryHeld symbolName next := by
  unfold Step Shared.step at moved
  cases act with
  | links i bridge server =>
    obtain ⟨u, there, rfl⟩ := Option.map_eq_some_iff.mp moved
    have own := held u (List.mem_of_getElem? there)
    exact held.setUser { own with current := { own.current with } }
  | fetches i restoring =>
    obtain ⟨u, there, taken⟩ := Option.bind_eq_some_iff.mp moved
    obtain ⟨next, did, rfl⟩ := Option.map_eq_some_iff.mp taken
    have known : Known symbolName s.program (exportOf s.program) :=
      ⟨laws.keys s.program, fun sym listed => by rw [laws.exported s.program sym listed, Option.isSome_some]⟩
    exact held.setUser ((held u (List.mem_of_getElem? there)).fetches known did)
  | stores i k repo folder item =>
    obtain ⟨u, there, taken⟩ := Option.bind_eq_some_iff.mp moved
    obtain ⟨next, did, rfl⟩ := Option.map_eq_some_iff.mp taken
    exact held.setUser ((held u (List.mem_of_getElem? there)).stores did)
  | edits i view =>
    obtain ⟨u, there, rfl⟩ := Option.map_eq_some_iff.mp moved
    have own := held u (List.mem_of_getElem? there)
    exact held.setUser { own with current := own.current.edits view }
  | collects i =>
    obtain ⟨u, there, taken⟩ := Option.bind_eq_some_iff.mp moved
    obtain ⟨collected, did, rfl⟩ := Option.map_eq_some_iff.mp taken
    exact held.setUser ((held u (List.mem_of_getElem? there)).collects did)
  | checksIn i k comment applied reply =>
    obtain ⟨u, there, taken⟩ := Option.bind_eq_some_iff.mp moved
    obtain ⟨c, -, taken⟩ := Option.bind_eq_some_iff.mp taken
    have own := ((held u (List.mem_of_getElem? there)).checksIn c comment reply).reviewed k
    split at taken
    · obtain ⟨-, sent⟩ := Option.ite_none_right_eq_some.mp taken
      obtain ⟨program, ran, rfl⟩ := Option.map_eq_some_iff.mp sent
      have stay : ∀ key, (symbolName s.program key).isSome → (symbolName program key).isSome :=
        fun key => applies_named laws ran
      intro other member
      rcases List.mem_or_eq_of_mem_set member with before | rfl
      · exact (held other before).later stay
      · exact own.later stay
    · obtain ⟨-, did⟩ := Option.ite_none_left_eq_some.mp taken
      cases did
      exact held.setUser own
  | cancels i k =>
    obtain ⟨u, there, rfl⟩ := Option.map_eq_some_iff.mp moved
    exact held.setUser ((held u (List.mem_of_getElem? there)).reviewed k)

variable {program : P} {views : List BinaryView} {s next : Shared P}

include laws in
theorem reached_held (reached : Reaches (Step lib exportOf) (fun _ _ => True) (start program views) s) :
    EveryHeld symbolName s :=
  reached.invariant (start_held program views) fun _ _ _ held _ moved => step_held laws held moved

section
variable {u : User} {c : Review} {sync : Sync} {addr : UInt64} {key : Int64} (held : Held symbolName s.program c)
  (synced : c.sync = some sync) (keyed : c.checkinState.addrToKey.lookup addr = some key)
  (kept : c.renamed addr = false) {later : P} (filled : c.preview.empty = false) (ran : s.applies lib u c = some later)
include held synced keyed

theorem Held.named : (symbolName s.program key).isSome := by
  rw [held.keys sync synced] at keyed
  obtain ⟨sym, member, -, rfl⟩ := Sync.of_lookup_key keyed
  exact held.known sync synced sym member

omit held synced keyed in
include filled in
/-- Something is only collected where something was imported. -/
theorem imported_of_filled : c.checkinState.checkinItem ≠ "" := by
  intro cleared
  rw [Review.preview, collectCheckinChanges, if_pos cleared] at filled
  cases filled

include laws kept filled ran

/-- A request leaves the name of a symbol where the view was not renamed and is not stale. -/
theorem Held.fresh_left (fresh : ¬sync.Stale addr) : symbolName later key = symbolName s.program key := by
  obtain ⟨renamed, final, first, second, rfl⟩ := applies_eq_some ran
  rw [Review.preview, BaselineMoves.collectCheckinChanges_of_imported (imported_of_filled filled)] at first
  have quiet : ∀ r ∈ collectRenames c.checkinState c.view, r.key ≠ key := by
    intro r member same
    have place := (BaselineMoves.mem_collectRenames.mp member).1
    rw [held.keys sync synced] at place keyed
    have here := Sync.lookup_key_unique (held.once sync synced) (same ▸ place) keyed
    rw [← held.keys sync synced] at keyed
    exact fresh ((held.rename_iff synced keyed kept).mp ⟨r, member, here⟩)
  have between := renames_leave laws quiet first
  rw [newSymbols_leave laws (by rw [between]; exact held.named synced keyed) second, between]

/-- Where it is stale, the name of the view is sent. -/
theorem Held.stale_sent (stale : sync.Stale addr) :
    ∃ name, c.view.shownName addr = some name ∧
      (symbolName later key = some name ∨
        (¬Taken lib key name ∧ symbolName later key = symbolName s.program key)) := by
  obtain ⟨renamed, final, first, second, rfl⟩ := applies_eq_some ran
  rw [Review.preview, BaselineMoves.collectCheckinChanges_of_imported (imported_of_filled filled)] at first
  obtain ⟨r, member, rfl⟩ := (held.rename_iff synced keyed kept).mpr stale
  obtain ⟨place, made⟩ := BaselineMoves.mem_collectRenames.mp member
  obtain rfl : r.key = key := Option.some.inj (place.symm.trans keyed)
  obtain ⟨sym, found, -, shape⟩ := BaselineMoves.renameAt_eq_some.mp made
  have shows : c.view.shownName r.addr = some r.newName := by
    rw [BinaryView.shownName, found, Option.map_some, shape]
  have named := held.named synced keyed
  have reached := renames_reach laws named member (held.renames_once synced) first
  have still : (symbolName renamed.program r.key).isSome := by
    rcases reached with set | ⟨-, same⟩
    · rw [set, Option.isSome_some]
    · rw [same]
      exact named
  refine ⟨r.newName, shows, ?_⟩
  rw [newSymbols_leave laws still second]
  exact reached

end

end Runs

/-! ## Two users -/

/-- A program by its symbols, with calls that do nothing else. -/
def symbolLibrary : ProgramLibrary {} (Table Int64 GhidraSymbol) where
  hasSymbol p key := (p.lookup key).isSome
  setName p key name := (p.lookup key).map fun sym => p.set key { sym with name }
  createLabel _ _ _ := none
  isVariable _ _ := false
  setVariableType _ _ _ := none
  hasFunctionAt _ _ := false
  countParameters _ _ := none
  setParameterName _ _ _ _ := none
  setParameterType _ _ _ _ := none
  addParameter _ _ _ _ := none
  getDataAt _ _ := none
  clearCodeUnits _ _ _ := none
  createData _ _ _ := none
  hasFunction _ _ := some false
  setReturnType _ _ _ := none
  callingConventions _ := []
  setCallingConvention _ _ _ := none

def symbolExport (p : Table Int64 GhidraSymbol) : GhidraDbExport :=
  { symbols := p.items.map fun entry => { entry.2 with key := entry.1 } }

def nameIn (p : Table Int64 GhidraSymbol) (key : Int64) : Option String := (p.lookup key).map GhidraSymbol.name

theorem symbol_laws : NameLaws symbolLibrary symbolExport nameIn where
  found named := by simpa [nameIn, symbolLibrary] using named
  setName {p p' key name} renamed other := by
    obtain ⟨sym, -, rfl⟩ := Option.map_eq_some_iff.mp renamed
    rw [nameIn, Table.lookup_set]
    split <;> rfl
  createLabel := nofun
  keys p := by
    unfold symbolExport
    rw [List.map_map]
    exact List.pairwise_map.mpr p.items_pairwise
  exported p sym member := by
    obtain ⟨⟨key, record⟩, listed, rfl⟩ := List.mem_map.mp member
    rw [nameIn, Table.mem_items.mp listed, Option.map_some]

def oneFunction : Table Int64 GhidraSymbol :=
  Table.set ∅ 1 { key := 1, name := "parse", addr := 0x401000, type := .function }

private def done : Except String Json := .ok (.obj [("ok", .bool true)])

/-- Both import, the second user renames the function and checks in, and the first one
imports again and collects, with the function's old name still shown. -/
def turns : List Act :=
  [.links 0 true true, .links 1 true true, .fetches 0 false, .stores 0 0 "r" "/" "prog", .fetches 1 false,
    .stores 1 0 "r" "/" "prog",
    .edits 1 ((applyToView {} (symbolExport oneFunction)).1.defineUserSymbol ⟨.function, "parse_header", 0x401000⟩),
    .collects 1, .checksIn 1 0 "renamed" true done, .fetches 0 false, .stores 0 0 "r" "/" "prog", .collects 0]

end GhidraBridge.SharedNames
