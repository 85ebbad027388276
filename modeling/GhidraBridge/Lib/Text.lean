import Mathlib.Data.List.Basic
import GhidraBridge.Lib.Scan

/-! Replacing in a text, and reading a text line by line. -/
namespace Lib.Text

/-! ## Replacing -/

def replaceFrom (pattern replacement : List Char) : Nat → List Char → List Char
  | _, [] => []
  | skip + 1, _ :: rest => replaceFrom pattern replacement skip rest
  | 0, c :: rest =>
    if pattern.isPrefixOf (c :: rest) then
      replacement ++ replaceFrom pattern replacement (pattern.length - 1) rest
    else c :: replaceFrom pattern replacement 0 rest

/-- Every occurrence of a non-empty pattern replaced, from left to right and without
looking at a replacement again. -/
def replaceAll (pattern replacement text : List Char) : List Char := replaceFrom pattern replacement 0 text

theorem replaceAll_char (p : Char) (replacement text : List Char) :
    replaceAll [p] replacement text = text.flatMap fun c => if c = p then replacement else [c] := by
  unfold replaceAll
  induction text with
  | nil => rfl
  | cons c rest ih =>
    rw [replaceFrom, List.flatMap_cons]
    by_cases here : c = p
    · subst here
      simp [ih]
    · have apart : ¬p = c := Ne.symm here
      simp [here, apart, ih]

section Pair
variable {first second : Char} {replacement : List Char}

private theorem replaceAll_pair (rest : List Char) :
    replaceAll [first, second] replacement (first :: second :: rest) =
      replacement ++ replaceAll [first, second] replacement rest := by
  simp [replaceAll, replaceFrom]

private theorem replaceAll_apart {c : Char} (rest : List Char) (apart : c ≠ first) :
    replaceAll [first, second] replacement (c :: rest) = c :: replaceAll [first, second] replacement rest := by
  simp [replaceAll, replaceFrom, Ne.symm apart]

private theorem replaceAll_half {c : Char} (rest : List Char) (apart : c ≠ second) :
    replaceAll [first, second] replacement (first :: c :: rest) =
      first :: replaceAll [first, second] replacement (c :: rest) := by
  simp [replaceAll, replaceFrom, Ne.symm apart]

/-- A code of one character or two in which the first character of the pattern stands
only in front of a second one. -/
def IsCode (first second : Char) (code : List Char) : Prop :=
  code = [first, second] ∨ (∃ d, code = [d] ∧ d ≠ first) ∨ ∃ d, code = [first, d] ∧ d ≠ second ∧ d ≠ first

/-- In a text of such codes the pattern is found where it is a code, and nowhere else. -/
theorem replaceAll_flatMap {f : Char → List Char} (coded : ∀ c, IsCode first second (f c)) (text : List Char) :
    replaceAll [first, second] replacement (text.flatMap f) =
      text.flatMap fun c => if f c = [first, second] then replacement else f c := by
  induction text with
  | nil => rfl
  | cons c rest ih =>
    rw [List.flatMap_cons, List.flatMap_cons, ← ih]
    rcases coded c with here | ⟨d, alone, apart⟩ | ⟨d, paired, notSecond, notFirst⟩
    · rw [here, if_pos rfl]
      exact replaceAll_pair _
    · rw [alone, if_neg (by simp)]
      exact replaceAll_apart _ apart
    · rw [paired, if_neg (by simp [notSecond])]
      exact (replaceAll_half _ notSecond).trans (congrArg (first :: ·) (replaceAll_apart _ notFirst))

end Pair

/-! ## Lines -/

/-- The lines behind an already read part of one. A line ends with a newline, a carriage
return or both; the newline behind a carriage return is skipped when the next line is
read. A text that ends without a terminator ends with its last line. -/
def linesFrom (skipNewline : Bool) (line : List Char) : List Char → List (List Char)
  | [] => if line = [] then [] else [line]
  | c :: rest =>
    if c = '\n' then
      if skipNewline then linesFrom false line rest else line :: linesFrom false [] rest
    else if c = '\r' then line :: linesFrom true [] rest
    else linesFrom false (line ++ [c]) rest

def lines (text : List Char) : List (List Char) := linesFrom false [] text

/-- A newline ends whatever stands before it. -/
theorem lines_append_newline (text rest : List Char) :
    lines (text ++ '\n' :: rest) = lines (text ++ ['\n']) ++ lines rest := by
  have from_any (skip : Bool) (line : List Char) (empty : skip = true → line = []) :
      linesFrom skip line (text ++ '\n' :: rest) = linesFrom skip line (text ++ ['\n']) ++ linesFrom false [] rest := by
    induction text generalizing skip line with
    | nil =>
      cases skip with
      | true => simp [linesFrom, empty rfl]
      | false => simp [linesFrom]
    | cons c text ih =>
      simp only [List.cons_append, linesFrom]
      by_cases newline : c = '\n'
      · cases skip with
        | true =>
          simp only [newline, if_true]
          exact ih false line (by simp)
        | false => simp [newline, ih false [] (by simp)]
      · by_cases cr : c = '\r'
        · simp [cr, ih true [] (by simp)]
        · simp only [newline, cr, if_false]
          exact ih false (line ++ [c]) (by simp)
  exact from_any false [] (by simp)

private theorem linesFrom_run {run : List Char} (line rest : List Char) (newline : '\n' ∉ run) (cr : '\r' ∉ run) :
    linesFrom false line (run ++ rest) = linesFrom false (line ++ run) rest := by
  induction run generalizing line with
  | nil => simp
  | cons c run ih =>
    have first : c ≠ '\n' := fun same => newline (same ▸ List.mem_cons_self)
    have second : c ≠ '\r' := fun same => cr (same ▸ List.mem_cons_self)
    rw [List.cons_append, linesFrom, if_neg first, if_neg second,
      ih (line ++ [c]) (fun member => newline (List.mem_cons_of_mem c member))
        (fun member => cr (List.mem_cons_of_mem c member)), List.append_assoc, List.singleton_append]

/-- A line without a terminator of its own. -/
theorem lines_line {line : List Char} (newline : '\n' ∉ line) (cr : '\r' ∉ line) :
    lines (line ++ ['\n']) = [line] := by
  rw [lines, linesFrom_run [] ['\n'] newline cr]
  simp [linesFrom]

/-- A carriage return ends a line early; the other lines are made of what is behind it. -/
theorem lines_cut {line : List Char} (rest : List Char) (newline : '\n' ∉ line) (cr : '\r' ∉ line) :
    ∃ others, lines (line ++ '\r' :: rest) = line :: others ∧ ∀ other ∈ others, other.Sublist rest := by
  have sublist (text : List Char) (skip : Bool) (begun : List Char) :
      ∀ other ∈ linesFrom skip begun text, other.Sublist (begun ++ text) := by
    induction text generalizing skip begun with
    | nil =>
      intro other member
      by_cases empty : begun = []
      · simp [linesFrom, empty] at member
      · simp only [linesFrom, if_neg empty, List.mem_singleton] at member
        simp [member]
    | cons c text ih =>
      have later : ∀ other : List Char, other.Sublist text → other.Sublist (begun ++ c :: text) := fun other inside =>
        inside.trans ((List.sublist_cons_self c text).trans (List.sublist_append_right begun _))
      intro other member
      rw [linesFrom] at member
      split at member
      · split at member
        · exact (ih false begun other member).trans
            ((List.Sublist.refl begun).append (List.sublist_cons_self c text))
        · rcases List.mem_cons.mp member with rfl | inside
          · exact List.sublist_append_left other _
          · exact later other (ih false [] other inside)
      · split at member
        · rcases List.mem_cons.mp member with rfl | inside
          · exact List.sublist_append_left other _
          · exact later other (ih true [] other inside)
        · have inside := ih false (begun ++ [c]) other member
          rwa [List.append_assoc, List.singleton_append] at inside
  refine ⟨linesFrom true [] rest, ?_, fun other member => sublist rest true [] other member⟩
  rw [lines, linesFrom_run [] ('\r' :: rest) newline cr]
  simp [linesFrom]

/-! ## Fields -/

theorem length_splitOn {A : Type} [DecidableEq A] (mark : A) (text : List A) :
    (text.splitOn mark).length = text.count mark + 1 := by
  induction text with
  | nil => rfl
  | cons x rest ih =>
    rw [List.splitOn_cons_eq_if_modifyHead, List.count_cons]
    by_cases here : (x == mark) = true
    · rw [if_pos here, if_pos here, List.length_cons, ih]
    · rw [if_neg here, if_neg here, List.length_modifyHead, ih]

/-! ## Lines that are ended by a mark -/

section
variable {A : Type u} [DecidableEq A] {mark : A}

/-- The parts of a text that a mark ends. -/
def terminated (mark : A) (text : List A) : List (List A) := (text.splitOn mark).dropLast

/-- What stands behind the last mark. -/
def remainder (mark : A) (text : List A) : List A := (text.splitOn mark).getLast (List.splitOn_ne_nil mark text)

theorem terminated_cut {line : List A} (rest : List A) (absent : mark ∉ line) :
    terminated mark (line ++ mark :: rest) = line :: terminated mark rest := by
  rw [terminated, List.splitOn_append_cons_self_of_not_mem absent,
    List.dropLast_cons_of_ne_nil (List.splitOn_ne_nil mark rest)]
  rfl

theorem remainder_cut {line : List A} (rest : List A) (absent : mark ∉ line) :
    remainder mark (line ++ mark :: rest) = remainder mark rest := by
  simp only [remainder, List.splitOn_append_cons_self_of_not_mem absent]
  exact List.getLast_cons (List.splitOn_ne_nil mark rest)

theorem terminated_of_absent {text : List A} (absent : mark ∉ text) : terminated mark text = [] := by
  rw [terminated, List.splitOn_eq_singleton absent]
  rfl

theorem remainder_of_absent {text : List A} (absent : mark ∉ text) : remainder mark text = text := by
  simp only [remainder, List.splitOn_eq_singleton absent, List.getLast_singleton]

/-- A text that goes on: its ended parts stay, and its remainder begins the next one. -/
theorem terminated_append (text more : List A) :
    terminated mark (text ++ more) = terminated mark text ++ terminated mark (remainder mark text ++ more) ∧
      remainder mark (text ++ more) = remainder mark (remainder mark text ++ more) := by
  induction length : text.length using Nat.strongRecOn generalizing text with
  | ind n ih =>
    cases cut : Scan.splitFirst mark text with
    | none =>
      have absent := Scan.splitFirst_eq_none.mp cut
      rw [terminated_of_absent absent, remainder_of_absent absent]
      exact ⟨rfl, rfl⟩
    | some parts =>
      obtain ⟨line, rest⟩ := parts
      obtain ⟨rfl, absent⟩ := Scan.splitFirst_eq_some.mp cut
      have shorter : rest.length < n := by
        rw [← length, List.length_append, List.length_cons]
        omega
      obtain ⟨lines, tail⟩ := ih _ shorter rest rfl
      rw [List.append_assoc, List.cons_append, terminated_cut _ absent, terminated_cut _ absent,
        remainder_cut _ absent, remainder_cut _ absent, lines, tail]
      exact ⟨rfl, rfl⟩

end

end Lib.Text
