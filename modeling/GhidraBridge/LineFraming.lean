import Mathlib.Data.List.Forall2
import Mathlib.Logic.Relation
import GhidraBridge.Lib.Text

/-! How the receive thread cuts the bytes of the socket into messages
(`BridgeClient::receiveLoop`). Each chunk is appended to an unfinished line, and the
lines that are complete then are taken off its front, so the unfinished line after
any number of chunks is what stands behind the last newline of all the bytes. -/
namespace GhidraBridge.LineFraming
open Lib Lib.Scan Lib.Text

def newline : UInt8 := 10

def carriageReturn : UInt8 := 13

/-- What a line goes through. Either part may end with an exception, `dispatch` also
after it has changed something. -/
structure LineHandler (W : Type u) (Msg : Type v) where
  parse : List UInt8 → Except String Msg
  dispatch : Msg → W → W × Option String

/-- The receive thread between two statements, with the lines handed to the parser so far. -/
structure ReceiveLoop (W : Type u) where
  partialLine : List UInt8 := []
  handed : List (List UInt8) := []
  running : Bool := true
  world : W

/-- A line without one carriage return at its end. -/
def stripCr (line : List UInt8) : List UInt8 :=
  if line.getLast? = some carriageReturn then line.dropLast else line

section
variable {W : Type u} {Msg : Type v} (h : LineHandler W Msg)

/-- The try block, with the exception it ends with. -/
def attempt (line : List UInt8) (world : W) : W × Option String :=
  match h.parse line with
  | .error what => (world, some what)
  | .ok msg => h.dispatch msg world

/-- The exception is caught and forgotten. -/
def handle (world : W) (line : List UInt8) : W := (attempt h line world).1

/-- One turn of the inner loop, while the unfinished line has a newline. -/
def turn (s : ReceiveLoop W) : Option (ReceiveLoop W) :=
  (splitFirst newline s.partialLine).map fun parts =>
    let line := stripCr parts.1
    let s := { s with partialLine := parts.2 }
    if line = [] then s else { s with handed := s.handed ++ [line], world := handle h s.world line }

/-- A turn that takes a line off leaves a shorter unfinished one. -/
theorem turn_eq_some {s next : ReceiveLoop W} (taken : turn h s = some next) :
    ∃ line rest, s.partialLine = line ++ newline :: rest ∧ newline ∉ line ∧
      next =
        if stripCr line = [] then { s with partialLine := rest }
        else
          { s with
            partialLine := rest
            handed := s.handed ++ [stripCr line]
            world := handle h s.world (stripCr line) } := by
  obtain ⟨⟨line, rest⟩, cut, rfl⟩ := Option.map_eq_some_iff.mp taken
  obtain ⟨shape, absent⟩ := splitFirst_eq_some.mp cut
  exact ⟨line, rest, shape, absent, rfl⟩

theorem turn_shorter {s next : ReceiveLoop W} (taken : turn h s = some next) :
    next.partialLine.length < s.partialLine.length := by
  obtain ⟨line, rest, shape, -, rfl⟩ := turn_eq_some h taken
  rw [shape, List.length_append, List.length_cons]
  split <;> simp only <;> omega

/-- The inner loop. -/
def drain (s : ReceiveLoop W) : ReceiveLoop W :=
  match _taken : turn h s with
  | none => s
  | some next => drain next
termination_by s.partialLine.length
decreasing_by exact turn_shorter h _taken

/-- The outer loop over what each of its turns receives: nothing where the loop is told
to stop, and where `recv` sees the end of the connection or fails. -/
def receiveLoop (s : ReceiveLoop W) : List (Option (List UInt8)) → ReceiveLoop W
  | [] => s
  | answer :: later =>
    let chunk := answer.getD []
    if chunk = [] then { s with running := false }
    else receiveLoop (drain h { s with partialLine := s.partialLine ++ chunk }) later

/-! ## The lines of the stream -/

/-- All bytes received before the loop ends. -/
def received : List (Option (List UInt8)) → List UInt8
  | [] => []
  | answer :: later => if answer.getD [] = [] then [] else answer.getD [] ++ received later

/-- The text of a line: all of it, or all but the one carriage return it ends in. -/
inductive LineText : List UInt8 → List UInt8 → Prop
  | ended (text : List UInt8) : LineText (text ++ [carriageReturn]) text
  | whole (text : List UInt8) (open' : ∀ front, text ≠ front ++ [carriageReturn]) : LineText text text

theorem lineText_stripCr (line : List UInt8) : LineText line (stripCr line) := by
  unfold stripCr
  split
  · rename_i ends
    obtain ⟨front, rfl⟩ := List.getLast?_eq_some_iff.mp ends
    rw [List.dropLast_concat]
    exact .ended front
  · rename_i other
    refine .whole line fun front shape => other ?_
    rw [shape, List.getLast?_concat]

/-- The lines that the loop takes off a stream. -/
def streamLines (stream : List UInt8) : List (List UInt8) :=
  ((terminated newline stream).map stripCr).filter (· ≠ [])

theorem streamLines_append (stream more : List UInt8) :
    streamLines (stream ++ more) = streamLines stream ++ streamLines (remainder newline stream ++ more) := by
  rw [streamLines, (terminated_append stream more).1, List.map_append, List.filter_append]
  rfl

theorem streamLines_cut {line : List UInt8} (rest : List UInt8) (absent : newline ∉ line) :
    streamLines (line ++ newline :: rest) =
      (if stripCr line = [] then [] else [stripCr line]) ++ streamLines rest := by
  rw [streamLines, terminated_cut rest absent, List.map_cons, List.filter_cons]
  split <;> rename_i kept <;> simp_all [streamLines]

theorem turn_eq_none {s : ReceiveLoop W} : turn h s = none ↔ newline ∉ s.partialLine := by
  rw [turn, Option.map_eq_none_iff, splitFirst_eq_none]

/-- The inner loop stops where no newline is left, after as many turns as there were. -/
theorem drain_turns (s : ReceiveLoop W) :
    Relation.ReflTransGen (fun s next => turn h s = some next) s (drain h s) ∧ turn h (drain h s) = none := by
  induction s using drain.induct h with
  | case1 s stopped =>
    rw [drain, stopped]
    exact ⟨.refl, stopped⟩
  | case2 s next taken ih =>
    rw [drain, taken]
    exact ⟨.head taken ih.1, ih.2⟩

/-- The inner loop hands out the ended lines and keeps the rest. -/
theorem drain_eq (s : ReceiveLoop W) :
    drain h s =
      { s with
        partialLine := remainder newline s.partialLine
        handed := s.handed ++ streamLines s.partialLine
        world := (streamLines s.partialLine).foldl (handle h) s.world } := by
  induction s using drain.induct h with
  | case1 s stopped =>
    have absent := (turn_eq_none h).mp stopped
    rw [drain, stopped, remainder_of_absent absent, streamLines, terminated_of_absent absent]
    simp
  | case2 s next taken ih =>
    rw [drain, taken]
    obtain ⟨line, rest, shape, absent, rfl⟩ := turn_eq_some h taken
    rw [shape, remainder_cut rest absent, streamLines_cut rest absent]
    dsimp only
    rw [ih]
    split <;> simp

theorem turn_wellFounded : WellFounded fun next s : ReceiveLoop W => turn h s = some next :=
  Subrelation.wf (fun taken => turn_shorter h taken) (measure fun s : ReceiveLoop W => s.partialLine.length).wf

/-- What the loop has received only counts as a whole: behind an unfinished line, each
chunk goes on with the stream. -/
theorem receiveLoop_eq (s : ReceiveLoop W) (answers : List (Option (List UInt8)))
    (unfinished : newline ∉ s.partialLine) :
    let stream := s.partialLine ++ received answers
    let after := receiveLoop h s answers
    after.partialLine = remainder newline stream ∧ after.handed = s.handed ++ streamLines stream ∧
      after.world = (streamLines stream).foldl (handle h) s.world := by
  induction answers generalizing s with
  | nil => simp [receiveLoop, received, streamLines, remainder_of_absent unfinished, terminated_of_absent unfinished]
  | cons answer later ih =>
    by_cases ended : answer.getD [] = []
    · simp [receiveLoop, received, ended, streamLines, remainder_of_absent unfinished, terminated_of_absent unfinished]
    · have still := (turn_eq_none h).mp (drain_turns h { s with partialLine := s.partialLine ++ answer.getD [] }).2
      obtain ⟨rest, handed, world⟩ := ih _ still
      simp only [receiveLoop, received, if_neg ended]
      rw [rest, handed, world, drain_eq]
      simp only [← List.append_assoc, streamLines_append (s.partialLine ++ answer.getD []) (received later),
        (terminated_append (s.partialLine ++ answer.getD []) (received later)).2, List.foldl_append]
      exact ⟨trivial, trivial, trivial⟩

/-- A line that does not parse leaves everything as it is, and one whose dispatch throws
leaves what it did before. -/
theorem foldl_handle (lines : List (List UInt8)) (world : W) :
    lines.foldl (handle h) world =
      (lines.filterMap fun line => (h.parse line).toOption).foldl
        (fun world msg => (h.dispatch msg world).1) world := by
  induction lines generalizing world with
  | nil => rfl
  | cons line rest ih =>
    rw [List.foldl_cons, ih, handle, attempt]
    cases parsed : h.parse line with
    | error what => simp [parsed, Except.toOption]
    | ok msg => simp [parsed, Except.toOption]

theorem forall₂_stripCr (lines : List (List UInt8)) : List.Forall₂ LineText lines (lines.map stripCr) :=
  List.forall₂_map_right_iff.mpr (List.forall₂_same.mpr fun line _ => lineText_stripCr line)

/-- What a run of the loop leaves: the lines handed to the parser are the texts of the
stream's ended lines, without the empty ones, however the bytes arrive; and each acts as if
it stood alone with those that parse. -/
structure Framed (world : W) (answers : List (Option (List UInt8))) (after : ReceiveLoop W) : Prop where
  independent : ∀ other, received other = received answers →
    (receiveLoop h { world } other).handed = after.handed ∧ (receiveLoop h { world } other).world = after.world
  lines : ∃ texts, List.Forall₂ LineText (terminated newline (received answers)) texts ∧
    after.handed = texts.filter (· ≠ [])
  unfinished : after.partialLine = remainder newline (received answers)
  effect : after.world =
    (after.handed.filterMap fun line => (h.parse line).toOption).foldl (fun world msg => (h.dispatch msg world).1) world

/-- Every run of the loop frames its stream, and the inner loop ends. -/
theorem framing_independent_of_chunks (world : W) (answers : List (Option (List UInt8))) :
    Framed h world answers (receiveLoop h { world } answers) ∧
      (WellFounded fun next s : ReceiveLoop W => turn h s = some next) ∧
      ∀ begun, Relation.ReflTransGen (fun s next => turn h s = some next) begun (drain h begun) ∧
        turn h (drain h begun) = none := by
  obtain ⟨rest, handed, effect⟩ := receiveLoop_eq h { world } answers List.not_mem_nil
  have handed : (receiveLoop h { world } answers).handed = streamLines (received answers) := handed
  refine ⟨⟨fun other same => ?_, ⟨_, forall₂_stripCr _, handed⟩, rest, ?_⟩, turn_wellFounded h, drain_turns h⟩
  · obtain ⟨-, handed', effect'⟩ := receiveLoop_eq h { world } other List.not_mem_nil
    rw [effect, effect', handed, handed', same]
    exact ⟨rfl, rfl⟩
  · rw [effect, handed]
    exact foldl_handle h _ world

end

end GhidraBridge.LineFraming
