import Mathlib.Data.List.Basic

/-! The words of a line in which nothing means more to a POSIX shell than a blank, a quote or
a backslash. Any other line is left to the shell: one with a character that may start an
expansion, an assignment, a pattern, a comment or an operator, with an open quote, or with a
character that no argument can hold. -/
namespace Lib.ShellWords

inductive Mode where
  | plain | single | double
  /-- Behind a backslash, outside of quotes and between double ones. -/
  | escaped | doubleEscaped
  deriving DecidableEq

/-- The words read so far, the one being read, if one is, and what the next character means. -/
structure Reader where
  words : List (List Char) := []
  word : Option (List Char) := none
  mode : Mode := .plain
  deriving DecidableEq

def isBlank (c : Char) : Bool := c = ' ' || c = '\t'

/-- What can mean something to a shell outside of quotes, besides quotes and backslashes. -/
def specials : List Char := "\n|&;<>()$`*?[{}=".toList

/-- What can mean something at the start of a word. -/
def leaders : List Char := "#~".toList

/-- What can start an expansion, between double quotes too. -/
def expansions : List Char := "$`".toList

/-- What a backslash between double quotes takes the meaning from. -/
def escapable : List Char := "$`\"\\".toList

namespace Reader

def push (r : Reader) (text : List Char) (mode : Mode) : Reader :=
  { r with word := some (r.word.getD [] ++ text), mode }

/-- A blank ends the word before it, if there is one. -/
def ended (r : Reader) : Reader := { r with words := r.words ++ r.word.toList, word := none }

def step (r : Reader) (c : Char) : Option Reader :=
  if c = '\x00' then none
  else
    match r.mode with
    | .plain =>
      if isBlank c then some r.ended
      else if c = '\"' then some (r.push [] .double)
      else if c = '\'' then some (r.push [] .single)
      else if c = '\\' then some { r with mode := .escaped }
      else if c ∈ specials ∨ (c ∈ leaders ∧ r.word = none) then none
      else some (r.push [c] .plain)
    | .single => if c = '\'' then some { r with mode := .plain } else some (r.push [c] .single)
    | .double =>
      if c = '\"' then some { r with mode := .plain }
      else if c ∈ expansions then none
      else if c = '\\' then some { r with mode := .doubleEscaped }
      else some (r.push [c] .double)
    -- An escaped newline is no character at all.
    | .escaped => if c = '\n' then some { r with mode := .plain } else some (r.push [c] .plain)
    | .doubleEscaped =>
      if c = '\n' then some { r with mode := .double }
      else if c ∈ escapable then some (r.push [c] .double)
      else some (r.push ['\\', c] .double)

def finish (r : Reader) : Option (List (List Char)) :=
  if r.mode = .plain then some (r.words ++ r.word.toList) else none

def run (r : Reader) (text : List Char) : Option Reader := text.foldlM step r

end Reader

/-- The words of a line, where it is nothing but words. -/
def words (line : List Char) : Option (List (List Char)) := (Reader.run {} line).bind Reader.finish

/-- A shell: the arguments it gives to the command of a line, if the line is one command. A
line that starts with a quote has neither a reserved word nor an alias nor an assignment in
front, so that it is read as its words where it is nothing but words. -/
structure Shell where
  arguments : List Char → Option (List (List Char))
  reads : ∀ {rest args}, words ('\"' :: rest) = some args → arguments ('\"' :: rest) = some args

/-- The one that reads nothing else. -/
def quoting : Shell := ⟨words, id⟩

/-! ## Texts that are read as they are -/

/-- Between double quotes a text stands for itself: nothing ends the quote or expands, and
each backslash is before a character it does not escape. -/
def quotable (behind : Bool) : List Char → Bool
  | [] => !behind
  | c :: rest =>
    if behind then c ≠ '\x00' && c ≠ '\n' && !escapable.contains c && quotable false rest
    else c ≠ '\x00' && c ≠ '\"' && !expansions.contains c && quotable (c = '\\') rest

/-- Characters that stand for themselves outside of quotes. -/
def isLiteral (c : Char) : Bool :=
  c ≠ '\x00' && !isBlank c && c ≠ '\"' && c ≠ '\'' && c ≠ '\\' && !specials.contains c

/-- Outside of quotes a text stands for itself. -/
def bareable (text : List Char) : Bool :=
  text ≠ [] && text.all isLiteral && !(text.head?.any leaders.contains)

theorem isLiteral_iff {c : Char} :
    isLiteral c = true ↔ c ≠ '\x00' ∧ isBlank c = false ∧ c ≠ '\"' ∧ c ≠ '\'' ∧ c ≠ '\\' ∧ c ∉ specials := by
  simp [isLiteral, and_assoc]

theorem quotable_append {behind : Bool} {first second : List Char} (asItIs : quotable behind first = true)
    (later : quotable false second = true) : quotable behind (first ++ second) = true := by
  induction first generalizing behind with
  | nil =>
    cases behind with
    | true => cases asItIs
    | false => exact later
  | cons c rest ih =>
    cases behind <;>
      simp only [quotable, List.cons_append, Bool.false_eq_true, if_false, if_true, Bool.and_eq_true] at asItIs ⊢
    all_goals exact ⟨asItIs.1, ih asItIs.2⟩

theorem expansions_special : ∀ c ∈ expansions, c ∈ specials := by decide

theorem quotable_plain {text : List Char} (plain : text.all isLiteral = true) : quotable false text = true := by
  induction text with
  | nil => rfl
  | cons c rest ih =>
    obtain ⟨first, later⟩ := Bool.and_eq_true_iff.mp plain
    obtain ⟨held, -, quote, -, escape, special⟩ := isLiteral_iff.mp first
    have literal : c ∉ expansions := fun there => special (expansions_special c there)
    simp [quotable, held, quote, literal, escape, ih later]

namespace Reader
variable {ws : List (List Char)} {w : List Char}

theorem run_append (r : Reader) (first second : List Char) :
    r.run (first ++ second) = (r.run first).bind fun r => r.run second := List.foldlM_append

theorem run_cons (r : Reader) (c : Char) (rest : List Char) : r.run (c :: rest) = (r.step c).bind fun r => r.run rest :=
  List.foldlM_cons

/-- Inside double quotes, behind a backslash or not. -/
def inside (behind : Bool) (ws : List (List Char)) (w : List Char) : Reader :=
  ⟨ws, some w, if behind then .doubleEscaped else .double⟩

theorem step_inside {c : Char} (held : c ≠ '\x00') (quote : c ≠ '\"') :
    (inside false ws w).step c =
      if c ∈ expansions then none
      else if c = '\\' then some (inside true ws w)
      else some (inside false ws (w ++ [c])) := by
  rw [step, if_neg held]
  simp only [inside, Bool.false_eq_true, if_false, if_neg quote]
  rfl

theorem step_behind {c : Char} (held : c ≠ '\x00') :
    (inside true ws w).step c =
      if c = '\n' then some (inside false ws w)
      else if c ∈ escapable then some (inside false ws (w ++ [c]))
      else some (inside false ws (w ++ ['\\', c])) := by
  rw [step, if_neg held]
  rfl

theorem run_quotable {behind : Bool} {text : List Char} (asItIs : quotable behind text = true) :
    (inside behind ws w).run text = some (inside false ws (w ++ ((if behind then ['\\'] else []) ++ text))) := by
  induction text generalizing behind w with
  | nil =>
    cases behind with
    | true => cases asItIs
    | false =>
      rw [if_neg Bool.false_ne_true, List.append_nil, List.append_nil]
      rfl
  | cons c rest ih =>
    cases behind with
    | true =>
      simp only [quotable, if_true, Bool.and_eq_true, decide_eq_true_eq, Bool.not_eq_true', List.contains_eq_mem,
        decide_eq_false_iff_not] at asItIs
      obtain ⟨⟨⟨held, line⟩, kept⟩, later⟩ := asItIs
      rw [run_cons, step_behind held, if_neg line, if_neg kept, Option.bind_some, ih later]
      simp
    | false =>
      simp only [quotable, Bool.false_eq_true, if_false, Bool.and_eq_true, decide_eq_true_eq, Bool.not_eq_true',
        List.contains_eq_mem, decide_eq_false_iff_not] at asItIs
      obtain ⟨⟨⟨held, quote⟩, literal⟩, later⟩ := asItIs
      rw [run_cons, step_inside held quote, if_neg literal]
      by_cases escape : c = '\\'
      · rw [decide_eq_true escape] at later
        rw [if_pos escape, Option.bind_some, ih later, escape]
        simp
      · rw [decide_eq_false escape] at later
        rw [if_neg escape, Option.bind_some, ih later]
        simp

/-- A text in double quotes that stands for itself is a word. -/
theorem run_quoted {text : List Char} (asItIs : quotable false text = true) :
    (⟨ws, none, .plain⟩ : Reader).run (('\"' :: text) ++ ['\"']) = some ⟨ws, some text, .plain⟩ := by
  have opened : (⟨ws, none, .plain⟩ : Reader).step '\"' = some (inside false ws []) := rfl
  have closed : (inside false ws text).run ['\"'] = some ⟨ws, some text, .plain⟩ := rfl
  rw [List.cons_append, run_cons, opened, Option.bind_some, run_append, run_quotable asItIs]
  exact closed

/-- A plain character goes on with a word. -/
theorem step_plain {c : Char} (plain : isLiteral c = true) :
    (⟨ws, some w, .plain⟩ : Reader).step c = some ⟨ws, some (w ++ [c]), .plain⟩ := by
  obtain ⟨held, blank, quote, apostrophe, backslash, special⟩ := isLiteral_iff.mp plain
  simp [step, held, blank, quote, apostrophe, backslash, special, push]

/-- It starts one unless it means something there. -/
theorem step_first {c : Char} (plain : isLiteral c = true) :
    (⟨ws, none, .plain⟩ : Reader).step c = if c ∈ leaders then none else some ⟨ws, some [c], .plain⟩ := by
  obtain ⟨held, blank, quote, apostrophe, backslash, special⟩ := isLiteral_iff.mp plain
  by_cases leads : c ∈ leaders <;> simp [step, held, blank, quote, apostrophe, backslash, special, push, leads]

theorem run_plain {text : List Char} (plain : text.all isLiteral = true) :
    (⟨ws, some w, .plain⟩ : Reader).run text = some ⟨ws, some (w ++ text), .plain⟩ := by
  induction text generalizing w with
  | nil =>
    rw [List.append_nil]
    rfl
  | cons c rest ih =>
    obtain ⟨first, later⟩ := Bool.and_eq_true_iff.mp plain
    rw [run_cons, step_plain first, Option.bind_some, ih later, List.append_assoc, List.singleton_append]

/-- A bare text that stands for itself is a word. -/
theorem run_bareable {text : List Char} (asItIs : bareable text = true) :
    (⟨ws, none, .plain⟩ : Reader).run text = some ⟨ws, some text, .plain⟩ := by
  cases text with
  | nil => cases asItIs
  | cons c rest =>
    simp only [bareable, List.all_cons, Bool.and_eq_true, List.head?_cons, Option.any_some, Bool.not_eq_true',
      List.contains_eq_mem, decide_eq_false_iff_not] at asItIs
    obtain ⟨⟨-, first, later⟩, leads⟩ := asItIs
    rw [run_cons, step_first first, if_neg leads, Option.bind_some, run_plain (by simpa using later)]
    rfl

end Reader

/-! ## Lines that are put together -/

/-- A word as it is written into a line. -/
inductive Piece where
  | bare (text : List Char)
  | quoted (text : List Char)

namespace Piece

def text : Piece → List Char
  | .bare text => text
  | .quoted text => text

def written : Piece → List Char
  | .bare text => text
  | .quoted text => '\"' :: text ++ ['\"']

/-- The word that is read is the text that was meant. -/
def asItIs : Piece → Bool
  | .bare text => bareable text
  | .quoted text => quotable false text

end Piece

def appended (pieces : List Piece) : List Char := pieces.flatMap fun piece => ' ' :: piece.written

def line (first : Piece) (rest : List Piece) : List Char := first.written ++ appended rest

namespace Reader
variable {ws : List (List Char)} {w : List Char}

theorem run_piece {piece : Piece} (asItIs : piece.asItIs = true) :
    (⟨ws, none, .plain⟩ : Reader).run piece.written = some ⟨ws, some piece.text, .plain⟩ := by
  cases piece with
  | bare text => exact run_bareable asItIs
  | quoted text => exact run_quoted asItIs

theorem run_blank (rest : List Char) :
    (⟨ws, some w, .plain⟩ : Reader).run (' ' :: rest) = (⟨ws ++ [w], none, .plain⟩ : Reader).run rest := by
  rw [run_cons]
  rfl

theorem run_appended (ws : List (List Char)) (w : List Char) {pieces : List Piece}
    (asTheyAre : ∀ piece ∈ pieces, piece.asItIs = true) :
    ∃ before last, before ++ [last] = ws ++ w :: pieces.map Piece.text ∧
      (⟨ws, some w, .plain⟩ : Reader).run (appended pieces) = some ⟨before, some last, .plain⟩ := by
  induction pieces generalizing ws w with
  | nil => exact ⟨ws, w, rfl, rfl⟩
  | cons piece rest ih =>
    rw [List.forall_mem_cons] at asTheyAre
    obtain ⟨before, last, texts, ran⟩ := ih (ws ++ [w]) piece.text asTheyAre.2
    refine ⟨before, last, by simpa using texts, ?_⟩
    rw [appended, List.flatMap_cons, List.cons_append, run_blank, run_append, run_piece asTheyAre.1]
    exact ran

theorem run_line {first : Piece} {rest : List Piece}
    (asTheyAre : ∀ piece ∈ first :: rest, piece.asItIs = true) :
    ∃ before last, before ++ [last] = (first :: rest).map Piece.text ∧
      ({} : Reader).run (line first rest) = some ⟨before, some last, .plain⟩ := by
  rw [List.forall_mem_cons] at asTheyAre
  obtain ⟨before, last, texts, ran⟩ := run_appended [] first.text asTheyAre.2
  refine ⟨before, last, texts, ?_⟩
  rw [line, run_append, run_piece asTheyAre.1]
  exact ran

end Reader

open Reader

/-- Pieces that stand for themselves are the words of their line. -/
theorem words_line {first : Piece} {rest : List Piece}
    (asTheyAre : ∀ piece ∈ first :: rest, piece.asItIs = true) :
    words (line first rest) = some ((first :: rest).map Piece.text) := by
  obtain ⟨before, last, texts, ran⟩ := run_line asTheyAre
  rw [words, ran, ← texts]
  rfl

/-- So they are the arguments in any shell, behind a command that is quoted. -/
theorem Shell.reads_line (shell : Shell) {command : List Char} {rest : List Piece}
    (asTheyAre : ∀ piece ∈ .quoted command :: rest, piece.asItIs = true) :
    shell.arguments (line (.quoted command) rest) = some ((Piece.quoted command :: rest).map Piece.text) :=
  shell.reads (words_line asTheyAre)

end Lib.ShellWords
