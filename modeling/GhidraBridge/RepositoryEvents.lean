import GhidraBridge.BridgeWire
import GhidraBridge.ImportRoundTrip

/-! The events of the watched repositories, from Ghidra's server to the panel
(`EventStreamer.java`, `pushEvent` and `onBridgeEvent`). Each repository that is opened
gets a thread that polls the server and writes its events on the socket of the requests;
between its look at `running` and the write another thread may stop it. -/
namespace GhidraBridge
open Lib

/-- The numbers of Ghidra's change types. -/
structure ChangeTypes where
  nullEvent : Int32
  folderCreated : Int32
  itemCreated : Int32
  folderDeleted : Int32
  folderMoved : Int32
  folderRenamed : Int32
  itemDeleted : Int32
  itemRenamed : Int32
  itemMoved : Int32
  itemChanged : Int32
  openHandleCount : Int32

structure RepositoryChangeEvent where
  type : Int32
  parentPath : Option String
  name : Option String
  newParentPath : Option String
  newName : Option String
  deriving DecidableEq

structure GhidraEvent where
  repo : String
  type : String
  parentPath : String
  name : String
  newParentPath : String
  newName : String
  deriving DecidableEq

/-- Where a streamer's thread is. -/
inductive StreamStage where
  /-- In `getEvents`. -/
  | waiting
  /-- Before its next look at `running`, with the events it has yet to look at. -/
  | between (rest : List RepositoryChangeEvent)
  /-- Past the look, with the event it is about to write. -/
  | holding (evt : RepositoryChangeEvent) (rest : List RepositoryChangeEvent)
  | ended
  deriving DecidableEq

/-- A streamer with its thread. All events it got, and how many it had written when it was
stopped, are history. -/
structure StreamThread where
  repoName : String
  running : Bool := true
  stage : StreamStage := .between []
  polled : List RepositoryChangeEvent := []
  atStop : Option Nat := none

/-- An event on the socket, with the place of its streamer. -/
structure PushedEvent where
  thread : Nat
  repoName : String
  evt : RepositoryChangeEvent

/-- One connection: the socket with the bridge behind it, the streamers, the lines the
client has yet to dispatch, the events the panel was given, and, as history, the events
written. -/
structure EventFeed where
  wire : Wire := {}
  threads : List StreamThread := []
  queue : List Json := []
  delivered : List GhidraEvent := []
  pushed : List PushedEvent := []

namespace EventFeed

section
variable (types : ChangeTypes)

def eventTypeName (type : Int32) : String :=
  if type = types.folderCreated then "REP_FOLDER_CREATED"
  else if type = types.itemCreated then "REP_ITEM_CREATED"
  else if type = types.folderDeleted then "REP_FOLDER_DELETED"
  else if type = types.folderMoved then "REP_FOLDER_MOVED"
  else if type = types.folderRenamed then "REP_FOLDER_RENAMED"
  else if type = types.itemDeleted then "REP_ITEM_DELETED"
  else if type = types.itemRenamed then "REP_ITEM_RENAMED"
  else if type = types.itemMoved then "REP_ITEM_MOVED"
  else if type = types.itemChanged then "REP_ITEM_CHANGED"
  else if type = types.openHandleCount then "REP_OPEN_HANDLE_COUNT"
  else "UNKNOWN_" ++ toString type.toInt

/-- A member that is left out where there is no text. -/
def present (key : String) (text : Option String) : List (String × Json) :=
  (text.map fun text => (key, Json.str text)).toList

/-- The line `pushEvent` writes. -/
def eventLine (repoName : String) (evt : RepositoryChangeEvent) : Json :=
  .obj ([("event", .str "repo_changed"), ("repo", .str repoName), ("type", .str (eventTypeName types evt.type))] ++
    present "parent_path" evt.parentPath ++ present "name" evt.name ++ present "new_parent_path" evt.newParentPath ++
    present "new_name" evt.newName)

end

def onBridgeEvent (evt : Json) : Except String GhidraEvent := do
  return {
    repo := ← DbExportJson.textOf evt "repo"
    type := ← DbExportJson.textOf evt "type"
    parentPath := ← DbExportJson.textOf evt "parent_path"
    name := ← DbExportJson.textOf evt "name"
    newParentPath := ← DbExportJson.textOf evt "new_parent_path"
    newName := ← DbExportJson.textOf evt "new_name" }

/-- What the panel gets of a message: an event that can be read. -/
def shown (msg : Json) : Option GhidraEvent := if msg.contains "event" then (onBridgeEvent msg).toOption else none

inductive Act where
  | start (repoName : String)
  | stop (i : Nat)
  /-- `getEvents` returns or throws. -/
  | poll (i : Nat) (events : Option (List RepositoryChangeEvent))
  /-- A look at `running`, and at the next event. -/
  | look (i : Nat)
  | push (i : Nat)
  /-- A line of the client reaches the bridge, and is worked off. -/
  | request (line : Option Json)
  | handle (server : ServerAnswers)
  | recv (n : Nat)
  | dispatch

section
variable (types : ChangeTypes) (bridgeProjectPath : String) (s : EventFeed)

/-- A step of one streamer. -/
def onThread (i : Nat) (f : StreamThread → Option StreamThread) : Option EventFeed :=
  match s.threads[i]? with
  | none => none
  | some thread => (f thread).map fun next => { s with threads := s.threads.set i next }

def pushedBy (i : Nat) : List RepositoryChangeEvent :=
  (s.pushed.filter fun p => p.thread = i).map PushedEvent.evt

def stop (sent : Nat) (thread : StreamThread) : StreamThread :=
  { thread with running := false, atStop := some (thread.atStop.getD sent) }

def poll (events : Option (List RepositoryChangeEvent)) (thread : StreamThread) : Option StreamThread :=
  match thread.stage, events with
  | .waiting, some events => some { thread with stage := .between events, polled := thread.polled ++ events }
  | .waiting, none => some { thread with running := false, stage := .ended }
  | _, _ => none

def look (thread : StreamThread) : Option StreamThread :=
  match thread.stage with
  | .between [] => some { thread with stage := if thread.running then .waiting else .ended }
  | .between (evt :: rest) =>
    if !thread.running then some { thread with stage := .ended }
    else if evt.type = types.nullEvent then some { thread with stage := .between rest }
    else some { thread with stage := .holding evt rest }
  | _ => none

/-- `pushEvent`. -/
def push (i : Nat) : Option EventFeed :=
  match s.threads[i]? with
  | none => none
  | some thread =>
    match thread.stage with
    | .holding evt rest =>
      (s.wire.event (eventLine types thread.repoName evt)).map fun wire =>
        { s with
          wire
          threads := s.threads.set i { thread with stage := .between rest }
          pushed := s.pushed ++ [{ thread := i, repoName := thread.repoName, evt }] }
    | _ => none

def step : Act → Option EventFeed
  | .start repoName => some { s with threads := s.threads ++ [{ repoName }] }
  | .stop i => s.onThread i fun thread => some (stop (s.pushedBy i).length thread)
  | .poll i events => s.onThread i (poll events)
  | .look i => s.onThread i (look types)
  | .push i => s.push types i
  | .request line => some { s with wire := s.wire.send line }
  | .handle server => (s.wire.handle bridgeProjectPath server).map fun wire => { s with wire }
  | .recv n =>
    some
      { s with
        queue := s.queue ++ s.wire.output.take n
        wire := { s.wire with output := s.wire.output.drop n } }
  | .dispatch =>
    match s.queue with
    | [] => none
    | msg :: queue => some { s with queue, delivered := s.delivered ++ (shown msg).toList }

def Step (s : EventFeed) (act : Act) (next : EventFeed) : Prop := s.step types bridgeProjectPath act = some next

end

end EventFeed
end GhidraBridge
