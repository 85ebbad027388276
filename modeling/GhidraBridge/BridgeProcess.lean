import GhidraBridge.Lib.Table
import GhidraBridge.Lib.Runs
import GhidraBridge.TypeNames

/-! The bridge as a child process (`BridgeProcess.cpp`, the POSIX half). One thread calls
`start` and `stop`, a logger thread reads the child's stderr, and any thread may ask
`isRunning`. Beside them the child ends when it wants, and descriptors and process
numbers that are free are given to others. -/
namespace GhidraBridge
open Lib

def signOf : List Char → Int × List Char
  | '-' :: rest => (-1, rest)
  | '+' :: rest => (1, rest)
  | rest => (1, rest)

/-- `std::stoi`, nothing where it throws: no digits, or too large a number. -/
def stoi (text : List Char) : Option Int :=
  let signed := signOf (text.dropWhile isSpace)
  let run := signed.2.takeWhile Char.isDigit
  let value := signed.1 * Nat.ofDigitChars 10 run 0
  if run ≠ [] ∧ -2 ^ 31 ≤ value ∧ value < 2 ^ 31 then some value else none

/-- How the wait for the child's line ends. -/
inductive Ready where
  | port (value : Int)
  /-- The child's output ends before the line. -/
  | exited
  /-- `stoi` throws, and nothing catches it. -/
  | throws
  deriving DecidableEq

def kPrefix : List Char := "READY port=".toList

/-- A line without one carriage return at its end. -/
def withoutCr (line : List Char) : List Char := if line.getLast? = some '\r' then line.dropLast else line

/-- `readReadyLine`: the line read so far, and what the child prints from there on. -/
def readReadyLine (line : List Char) : List Char → Ready
  | [] => .exited
  | ch :: rest =>
    if ch = '\n' then
      if kPrefix.isPrefixOf (withoutCr line) then
        match stoi ((withoutCr line).drop kPrefix.length) with
        | none => .throws
        | some value => .port value
      else readReadyLine [] rest
    else readReadyLine (line ++ [ch]) rest

/-- What a descriptor of the plugin's process stands for. -/
inductive Opened where
  | stdout | stderr | other
  deriving DecidableEq

/-- What a process number stands for. A child that has ended keeps its number until it is
waited for. -/
inductive Process where
  | bridge (ended : Bool)
  | other
  deriving DecidableEq

/-- The logger thread, with the number it reads from. -/
inductive Logger where
  | between (fd : Nat)
  /-- In a read of the child's stderr, which goes on when the number is closed. -/
  | reading (fd : Nat)
  /-- In a read of another file. -/
  | straying (fd : Nat)
  | ended
  deriving DecidableEq

/-- The next statement of `stop`. -/
inductive StopStage where
  | kill | closeErr | join | closeOut | reap
  deriving DecidableEq

/-- Where the thread that starts and stops is. A start stops first, and so does one that
waits for its line in vain. -/
inductive ProcessControl where
  | idle
  | stopping (stage : StopStage) (thenLaunch : Bool)
  | launching
  | waiting
  deriving DecidableEq

/-- The members, the threads, the descriptors and process numbers around them, those of
the plugin's other children among them, and what has happened: whether `isRunning` has
taken the child's end, the processes beside the child that were sent SIGTERM, and the
descriptors beside its own that the logger read. -/
structure BridgeProcess where
  pid : Option Nat := none
  pipeFd : Option Nat := none
  stderrFd : Option Nat := none
  port : Int := -1
  control : ProcessControl := .idle
  logger : Option Logger := none
  files : Table Nat Opened := ∅
  processes : Table Nat Process := ∅
  siblings : List Nat := []
  taken : Bool := false
  strayed : List Nat := []
  misread : List Nat := []

namespace BridgeProcess

/-- What comes of making the pipes and the child. -/
inductive Launch where
  | failed
  | forked (pid out err : Nat)

inductive Act where
  | start
  | stop
  /-- The next statement of `stop`. -/
  | next
  | launch (outcome : Launch)
  | readReady (printed : List Char)
  | isRunning
  | childEnds
  | loggerReads
  /-- The read of the child's stderr brings something, or the end of it. -/
  | loggerGets (something : Bool)
  /-- A read fails. -/
  | loggerFails
  /-- The read of another file brings something, or the end of it. -/
  | loggerStrays (something : Bool)
  | opens (fd : Nat)
  | closes (fd : Nat)
  /-- Another process begins, a child of the plugin or not. -/
  | spawns (pid : Nat) (ours : Bool)
  /-- Another process is gone: it has ended, and its parent has waited for it. -/
  | dies (pid : Nat)

variable (s : BridgeProcess)

/-- `kill(m_pid, SIGTERM)`. -/
def kill : BridgeProcess :=
  match s.pid with
  | none => s
  | some pid => if s.processes.lookup pid = some .other then { s with strayed := s.strayed ++ [pid] } else s

def closeErr : BridgeProcess :=
  match s.stderrFd with
  | none => s
  | some fd => { s with files := s.files.erase fd, stderrFd := none }

def closeOut : BridgeProcess :=
  match s.pipeFd with
  | none => s
  | some fd => { s with files := s.files.erase fd, pipeFd := none }

/-- `waitpid`, which waits for a child of the plugin to end and returns at once for a
process that is none. -/
def reap : Option BridgeProcess :=
  match s.pid with
  | none => some s
  | some pid =>
    match s.processes.lookup pid with
    | some (.bridge false) => none
    | some (.bridge true) => some { s with processes := s.processes.erase pid, pid := none }
    | _ => if pid ∈ s.siblings then none else some { s with pid := none }

/-- `join` waits for the logger to end. -/
def join : Option BridgeProcess :=
  match s.logger with
  | none => some s
  | some .ended => some { s with logger := none }
  | some _ => none

def nextStage (thenLaunch : Bool) : StopStage → Option BridgeProcess
  | .kill => some { s.kill with control := .stopping .closeErr thenLaunch }
  | .closeErr => some { s.closeErr with control := .stopping .join thenLaunch }
  | .join => s.join.map fun s => { s with control := .stopping .closeOut thenLaunch }
  | .closeOut => some { s.closeOut with control := .stopping .reap thenLaunch }
  | .reap => s.reap.map fun s => { s with port := -1, control := if thenLaunch then .launching else .idle }

/-- The parent's side of `start` up to the wait; the numbers given out are free ones. -/
def launch : Launch → Option BridgeProcess
  | .failed => some { s with control := .idle }
  | .forked pid out err =>
    if s.processes.lookup pid = none ∧ s.files.lookup out = none ∧ s.files.lookup err = none ∧ out ≠ err then
      some
        { s with
          pid := some pid
          pipeFd := some out
          stderrFd := some err
          files := (s.files.set out .stdout).set err .stderr
          processes := s.processes.set pid (.bridge false)
          taken := false
          control := .waiting }
    else none

/-- `startStderrLogger`. -/
def startStderrLogger : BridgeProcess :=
  match s.stderrFd with
  | none => s
  | some fd => { s with logger := some (.between fd) }

/-- The end of `start`. -/
def readReady (printed : List Char) : BridgeProcess :=
  match readReadyLine [] printed with
  | .port value => { s with port := value, control := .idle }.startStderrLogger
  | .exited => { s with control := .stopping .kill false }
  | .throws => { s with control := .idle }

/-- `isRunning` waits for the child without blocking, which takes its end. -/
def isRunning : Bool × BridgeProcess :=
  match s.pid with
  | none => (false, s)
  | some pid =>
    match s.processes.lookup pid with
    | some (.bridge false) => (true, s)
    | some (.bridge true) => (false, { s with processes := s.processes.erase pid, taken := true })
    | _ => (pid ∈ s.siblings, s)

/-- The child holds the other end of its stderr while it is alive. -/
def childAlive : Bool :=
  match s.pid with
  | none => false
  | some pid => s.processes.lookup pid = some (.bridge false)

/-- A read by number: of the child's stderr, of whatever has the number now, or of none. -/
def loggerReads (fd : Nat) : BridgeProcess :=
  match s.files.lookup fd with
  | none => { s with logger := some .ended }
  | some .stderr => { s with logger := some (.reading fd) }
  | some _ => { s with logger := some (.straying fd), misread := s.misread ++ [fd] }

/-- Where a read leaves the loop of the logger. -/
def loggerGoesOn (fd : Nat) (something : Bool) : BridgeProcess :=
  { s with logger := some (if something then .between fd else .ended) }

def step (s : BridgeProcess) : Act → Option BridgeProcess
  | .start => if s.control = .idle then some { s with control := .stopping .kill true } else none
  | .stop => if s.control = .idle then some { s with control := .stopping .kill false } else none
  | .next =>
    match s.control with
    | .stopping stage thenLaunch => s.nextStage thenLaunch stage
    | _ => none
  | .launch outcome => if s.control = .launching then s.launch outcome else none
  | .readReady printed => if s.control = .waiting then some (s.readReady printed) else none
  | .isRunning => some s.isRunning.2
  | .childEnds =>
    match s.pid with
    | some pid =>
      if s.processes.lookup pid = some (.bridge false) then
        some { s with processes := s.processes.set pid (.bridge true) }
      else none
    | none => none
  | .loggerReads =>
    match s.logger with
    | some (.between fd) => some (s.loggerReads fd)
    | _ => none
  | .loggerGets something =>
    match s.logger with
    | some (.reading fd) => if !something && s.childAlive then none else some (s.loggerGoesOn fd something)
    | _ => none
  | .loggerFails =>
    match s.logger with
    | some (.reading fd) | some (.straying fd) => some (s.loggerGoesOn fd false)
    | _ => none
  | .loggerStrays something =>
    match s.logger with
    | some (.straying fd) => some (s.loggerGoesOn fd something)
    | _ => none
  | .opens fd => if s.files.lookup fd = none then some { s with files := s.files.set fd .other } else none
  | .closes fd => if s.files.lookup fd = some .other then some { s with files := s.files.erase fd } else none
  | .spawns pid ours =>
    if s.processes.lookup pid = none then
      some
        { s with
          processes := s.processes.set pid .other
          siblings := if ours then pid :: s.siblings else s.siblings }
    else none
  | .dies pid =>
    if s.processes.lookup pid = some .other then
      some { s with processes := s.processes.erase pid, siblings := s.siblings.filter (· ≠ pid) }
    else none

def Step (s : BridgeProcess) (act : Act) (next : BridgeProcess) : Prop := s.step act = some next

end BridgeProcess
end GhidraBridge
