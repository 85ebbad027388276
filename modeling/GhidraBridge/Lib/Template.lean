import Mathlib.Data.List.Basic

/-! Templates with numbered place markers. A marker is a percent sign, an optional
`L` and one or two digits. An argument takes the place of the lowest number in the
template, wherever it stands, and is searched for markers by the next argument. -/
namespace Lib.Template

/-- Which characters count as digits: of the ASCII characters the ten digits, of the
others any. -/
structure Digits where
  value : Char → Option Nat
  ascii : ∀ c : Char, c.toNat < 128 → value c = if c.isDigit then some (c.toNat - 48) else none

def Digits.onlyAscii : Digits where
  value c := if c.isDigit then some (c.toNat - 48) else none
  ascii _ _ := rfl

inductive Token where
  | text (c : Char)
  | marker (number : Nat) (spelling : List Char)
  deriving DecidableEq

section Tokens
variable (digits : Digits)

/-- One or two digits behind the lead of a marker. -/
def digitsAt (lead : List Char) : List Char → Option (Nat × List Char)
  | [] => none
  | [d] => (digits.value d).map fun n => (n, lead ++ [d])
  | d :: e :: _ =>
    (digits.value d).map fun n =>
      match digits.value e with
      | some m => (10 * n + m, lead ++ [d, e])
      | none => (n, lead ++ [d])

/-- The number and the spelling of a marker the text starts with. -/
def markerAt : List Char → Option (Nat × List Char)
  | [] => none
  | c :: rest =>
    if c = '%' then
      match rest with
      | [] => none
      | l :: more => if l = 'L' then digitsAt digits ['%', 'L'] more else digitsAt digits ['%'] (l :: more)
    else none

def tokensFrom : Nat → List Char → List Token
  | _, [] => []
  | skip + 1, _ :: rest => tokensFrom skip rest
  | 0, c :: rest =>
    match markerAt digits (c :: rest) with
    | some (number, spelling) => .marker number spelling :: tokensFrom (spelling.length - 1) rest
    | none => .text c :: tokensFrom 0 rest

/-- A template cut into its markers and the characters between them. -/
def tokens (template : List Char) : List Token := tokensFrom digits 0 template

end Tokens

def Token.number? : Token → Option Nat
  | .text _ => none
  | .marker number _ => some number

/-- The lowest number among the markers. -/
def lowest (tokens : List Token) : Option Nat := (tokens.filterMap Token.number?).min?

def Token.numbered (number : Nat) : Token → Bool
  | .text _ => false
  | .marker other _ => other = number

/-- Put an argument in the place of every marker with one number. -/
def fill (number : Nat) (argument : List Char) (tokens : List Token) : List Char :=
  tokens.flatMap fun token =>
    match token with
    | .text c => [c]
    | .marker other spelling => if other = number then argument else spelling

/-- The template with the argument for its lowest number; without a marker nothing
changes. -/
def arg (digits : Digits) (template argument : List Char) : List Char :=
  match lowest (tokens digits template) with
  | none => template
  | some number => fill number argument (tokens digits template)

/-! ## Cutting -/

variable {digits : Digits}

/-- A character that is no part of a marker. -/
def Plain (digits : Digits) (c : Char) : Prop := c ≠ '%' ∧ c ≠ 'L' ∧ digits.value c = none

theorem markerAt_percent (l : Char) (more : List Char) :
    markerAt digits ('%' :: l :: more) =
      if l = 'L' then digitsAt digits ['%', 'L'] more else digitsAt digits ['%'] (l :: more) := rfl

theorem markerAt_other {c : Char} (rest : List Char) (other : c ≠ '%') : markerAt digits (c :: rest) = none := by
  cases rest <;> exact if_neg other

theorem plain_of_ascii {c : Char} (ascii : c.toNat < 128) (noDigit : c.isDigit = false) (notPercent : c ≠ '%')
    (notL : c ≠ 'L') : Plain digits c :=
  ⟨notPercent, notL, by rw [digits.ascii c ascii, noDigit]; rfl⟩

theorem value_percent : digits.value '%' = none := digits.ascii '%' (by decide)

/-- A marker is a percent sign and characters that are neither one nor plain. -/
theorem digitsAt_spelling {lead text spelling : List Char} {number : Nat}
    (found : digitsAt digits lead text = some (number, spelling)) :
    ∃ run rest, run ≠ [] ∧ spelling = lead ++ run ∧ text = run ++ rest ∧
      ∀ c ∈ run, (digits.value c).isSome := by
  cases text with
  | nil => cases found
  | cons d more =>
    cases more with
    | nil =>
      obtain ⟨n, digit, made⟩ := Option.map_eq_some_iff.mp found
      cases made
      exact ⟨[d], [], by simp, rfl, rfl, by simp [digit]⟩
    | cons e rest =>
      obtain ⟨n, digit, made⟩ := Option.map_eq_some_iff.mp found
      cases second : digits.value e with
      | none =>
        rw [second] at made
        cases made
        exact ⟨[d], e :: rest, by simp, rfl, rfl, by simp [digit]⟩
      | some m =>
        rw [second] at made
        cases made
        exact ⟨[d, e], rest, by simp, rfl, rfl, by simp [digit, second]⟩

theorem markerAt_spelling {text spelling : List Char} {number : Nat}
    (found : markerAt digits text = some (number, spelling)) :
    ∃ run rest, spelling = '%' :: run ∧ text = spelling ++ rest ∧ '%' ∉ run ∧
      ∀ c ∈ spelling, ¬Plain digits c := by
  have digit_percent {c : Char} (digit : (digits.value c).isSome) : c ≠ '%' := by
    rintro rfl
    simp [value_percent] at digit
  have digit_plain {c : Char} (digit : (digits.value c).isSome) : ¬Plain digits c := by
    rintro ⟨_, _, none⟩
    simp [none] at digit
  cases text with
  | nil => cases found
  | cons c text =>
    by_cases percent : c = '%'
    · subst percent
      cases text with
      | nil => cases found
      | cons l more =>
        by_cases localized : l = 'L'
        · subst localized
          rw [markerAt_percent, if_pos rfl] at found
          obtain ⟨run, rest, _, rfl, rfl, all⟩ := digitsAt_spelling found
          refine ⟨'L' :: run, rest, rfl, rfl, ?_, ?_⟩
          · intro inside
            rcases List.mem_cons.mp inside with same | inside
            · cases same
            · exact digit_percent (all _ inside) rfl
          · intro c inside
            rcases List.mem_cons.mp inside with rfl | inside
            · exact fun plain => plain.1 rfl
            · rcases List.mem_cons.mp inside with rfl | inside
              · exact fun plain => plain.2.1 rfl
              · exact digit_plain (all c inside)
        · rw [markerAt_percent, if_neg localized] at found
          obtain ⟨run, rest, _, rfl, same, all⟩ := digitsAt_spelling found
          rw [same]
          refine ⟨run, rest, rfl, rfl, fun inside => digit_percent (all _ inside) rfl, ?_⟩
          intro c inside
          rcases List.mem_cons.mp inside with rfl | inside
          · exact fun plain => plain.1 rfl
          · exact digit_plain (all c inside)
    · rw [markerAt_other text percent] at found
      cases found

private theorem tokensFrom_drop (skip : Nat) (text : List Char) :
    tokensFrom digits skip text = tokensFrom digits 0 (text.drop skip) := by
  induction text generalizing skip with
  | nil => cases skip <;> rfl
  | cons c rest ih =>
    cases skip with
    | zero => rfl
    | succ skip => exact ih skip

@[simp] theorem tokens_nil : tokens digits [] = [] := rfl

theorem tokens_text {c : Char} {rest : List Char} (unmarked : markerAt digits (c :: rest) = none) :
    tokens digits (c :: rest) = .text c :: tokens digits rest := by
  unfold tokens
  rw [tokensFrom, unmarked]

theorem tokens_marker {spelling rest : List Char} {number : Nat}
    (marked : markerAt digits (spelling ++ rest) = some (number, spelling)) :
    tokens digits (spelling ++ rest) = .marker number spelling :: tokens digits rest := by
  obtain ⟨run, _, rfl, _⟩ := markerAt_spelling marked
  rw [List.cons_append] at marked ⊢
  unfold tokens
  rw [tokensFrom, marked]
  dsimp only
  rw [tokensFrom_drop]
  congr 2
  exact List.drop_left

/-- A text is empty, or starts with a character of its own, or with a marker. -/
theorem tokens_induction (digits : Digits) {P : List Char → Prop} (nil : P [])
    (text : ∀ c rest, markerAt digits (c :: rest) = none → P rest → P (c :: rest))
    (marker : ∀ number spelling rest, markerAt digits (spelling ++ rest) = some (number, spelling) → P rest →
      P (spelling ++ rest))
    (template : List Char) : P template := by
  induction length : template.length using Nat.strongRecOn generalizing template with
  | _ size ih =>
    cases template with
    | nil => exact nil
    | cons c rest =>
      cases found : markerAt digits (c :: rest) with
      | none => exact text c rest found (ih rest.length (by simp [← length]) rest rfl)
      | some marked =>
        obtain ⟨number, spelling⟩ := marked
        obtain ⟨run, after, shape, split, _⟩ := markerAt_spelling found
        rw [split] at found length ⊢
        have shorter : after.length < size := by
          rw [← length, shape, List.length_append, List.length_cons]
          omega
        exact marker number spelling after found (ih after.length shorter after rfl)

theorem exists_markerAt {template spelling : List Char} {number : Nat}
    (marked : .marker number spelling ∈ tokens digits template) :
    ∃ rest, markerAt digits (spelling ++ rest) = some (number, spelling) := by
  induction template using tokens_induction digits with
  | nil => cases marked
  | text c rest unmarked ih =>
    rw [tokens_text unmarked] at marked
    rcases List.mem_cons.mp marked with first | inside
    · cases first
    · exact ih inside
  | marker other spelled rest here ih =>
    rw [tokens_marker here] at marked
    rcases List.mem_cons.mp marked with first | inside
    · cases first
      exact ⟨rest, here⟩
    · exact ih inside

/-- A marker of a single digit has the digit as its number. -/
theorem value_of_marker {template : List Char} {number : Nat} {d : Char} (notL : d ≠ 'L')
    (marked : .marker number ['%', d] ∈ tokens digits template) : digits.value d = some number := by
  obtain ⟨rest, found⟩ := exists_markerAt marked
  rw [List.cons_append, List.singleton_append, markerAt_percent, if_neg notL] at found
  cases rest with
  | nil =>
    obtain ⟨n, digit, made⟩ := Option.map_eq_some_iff.mp found
    cases made
    exact digit
  | cons e rest =>
    obtain ⟨n, digit, made⟩ := Option.map_eq_some_iff.mp found
    cases second : digits.value e with
    | none =>
      rw [second] at made
      cases made
      exact digit
    | some m =>
      rw [second] at made
      cases made

/-! ## Plain characters -/

theorem tokens_plain {c : Char} (rest : List Char) (plain : Plain digits c) :
    tokens digits (c :: rest) = .text c :: tokens digits rest :=
  tokens_text (markerAt_other rest plain.1)

theorem tokens_free {run : List Char} (rest : List Char) (free : '%' ∉ run) :
    tokens digits (run ++ rest) = run.map .text ++ tokens digits rest := by
  induction run with
  | nil => rfl
  | cons c run ih =>
    have apart : c ≠ '%' := fun same => free (same ▸ List.mem_cons_self)
    have later := ih fun member => free (List.mem_cons_of_mem c member)
    rw [List.cons_append, tokens_text (markerAt_other _ apart), later]
    rfl

private theorem digitsAt_append {c : Char} (plain : Plain digits c) (lead text rest : List Char) :
    digitsAt digits lead (text ++ c :: rest) = digitsAt digits lead text := by
  cases text with
  | nil => cases rest <;> simp [digitsAt, plain.2.2]
  | cons d more =>
    cases more with
    | nil => simp [digitsAt, plain.2.2]
    | cons e more => rfl

private theorem markerAt_append {c : Char} (plain : Plain digits c) (text rest : List Char) :
    markerAt digits (text ++ c :: rest) = markerAt digits text := by
  cases text with
  | nil => exact markerAt_other rest plain.1
  | cons d more =>
    by_cases percent : d = '%'
    · subst percent
      cases more with
      | nil =>
        rw [List.singleton_append, markerAt_percent, if_neg plain.2.1]
        exact digitsAt_append plain ['%'] [] rest
      | cons l more =>
        simp only [List.cons_append, markerAt_percent]
        rw [digitsAt_append plain, ← List.cons_append, digitsAt_append plain]
    · rw [List.cons_append, markerAt_other _ percent, markerAt_other _ percent]

/-- No marker reaches over a plain character. -/
theorem tokens_append {c : Char} (plain : Plain digits c) (text rest : List Char) :
    tokens digits (text ++ c :: rest) = tokens digits text ++ .text c :: tokens digits rest := by
  induction text using tokens_induction digits with
  | nil => exact tokens_plain rest plain
  | text d more unmarked ih =>
    have still : markerAt digits (d :: (more ++ c :: rest)) = none := by
      rw [← List.cons_append, markerAt_append plain, unmarked]
    rw [List.cons_append, tokens_text still, tokens_text unmarked, ih]
    rfl
  | marker number spelling more marked ih =>
    have still : markerAt digits (spelling ++ (more ++ c :: rest)) = some (number, spelling) := by
      rw [← List.append_assoc, markerAt_append plain, marked]
    rw [List.append_assoc, tokens_marker still, tokens_marker marked, ih]
    rfl

/-- Rewriting plain characters into plain characters leaves the markers alone. -/
structure KeepsMarkers (digits : Digits) (f : Char → List Char) : Prop where
  plain : ∀ c, Plain digits c → f c ≠ [] ∧ ∀ d ∈ f c, Plain digits d
  other : ∀ c, ¬Plain digits c → f c = [c]

/-- What a token of the template becomes. -/
def rewritten (f : Char → List Char) : Token → List Token
  | .text c => (f c).map .text
  | .marker number spelling => [.marker number spelling]

namespace KeepsMarkers
variable {f : Char → List Char} (keeps : KeepsMarkers digits f)
include keeps

/-- A text starts with what its first character is rewritten to. -/
private theorem head_plain {c : Char} (plain : Plain digits c) (rest : List Char) :
    ∃ d more, Plain digits d ∧ (c :: rest).flatMap f = d :: more := by
  obtain ⟨nonempty, all⟩ := keeps.plain c plain
  obtain ⟨d, more, shape⟩ := List.exists_cons_of_ne_nil nonempty
  refine ⟨d, more ++ rest.flatMap f, all d (shape ▸ List.mem_cons_self), ?_⟩
  rw [List.flatMap_cons, shape, List.cons_append]

private theorem flatMap_other {c : Char} (other : ¬Plain digits c) (rest : List Char) :
    (c :: rest).flatMap f = c :: rest.flatMap f := by
  rw [List.flatMap_cons, keeps.other c other, List.singleton_append]

private theorem digitsAt_flatMap (lead text : List Char) :
    digitsAt digits lead (text.flatMap f) = digitsAt digits lead text := by
  cases text with
  | nil => rfl
  | cons d rest =>
    by_cases plain : Plain digits d
    · obtain ⟨e, more, first, shape⟩ := keeps.head_plain plain rest
      rw [shape, ← List.nil_append (e :: more), digitsAt_append first, ← List.nil_append (d :: rest),
        digitsAt_append plain]
    · rw [keeps.flatMap_other plain]
      cases rest with
      | nil => rfl
      | cons e rest =>
        by_cases second : Plain digits e
        · obtain ⟨g, more, next, shape⟩ := keeps.head_plain second rest
          rw [shape]
          exact (digitsAt_append next lead [d] more).trans (digitsAt_append second lead [d] rest).symm
        · rw [keeps.flatMap_other second]
          rfl

private theorem markerAt_flatMap (text : List Char) : markerAt digits (text.flatMap f) = markerAt digits text := by
  cases text with
  | nil => rfl
  | cons c rest =>
    by_cases percent : c = '%'
    · subst percent
      rw [keeps.flatMap_other fun plain => plain.1 rfl]
      cases rest with
      | nil => rfl
      | cons l more =>
        by_cases plain : Plain digits l
        · obtain ⟨d, after, first, shape⟩ := keeps.head_plain plain more
          rw [shape]
          exact (markerAt_append first ['%'] after).trans (markerAt_append plain ['%'] more).symm
        · have rewritten := keeps.digitsAt_flatMap ['%'] (l :: more)
          rw [keeps.flatMap_other plain] at rewritten
          rw [keeps.flatMap_other plain, markerAt_percent, markerAt_percent, rewritten, keeps.digitsAt_flatMap]
    · rw [markerAt_other rest percent]
      by_cases plain : Plain digits c
      · obtain ⟨d, after, first, shape⟩ := keeps.head_plain plain rest
        rw [shape, markerAt_other after first.1]
      · rw [keeps.flatMap_other plain, markerAt_other _ percent]

private theorem flatMap_spelling {text spelling : List Char} {number : Nat}
    (marked : markerAt digits text = some (number, spelling)) : spelling.flatMap f = spelling := by
  obtain ⟨_, _, _, _, _, parts⟩ := markerAt_spelling marked
  have alone : spelling.flatMap f = spelling.flatMap fun c => [c] :=
    List.flatMap_congr fun c member => keeps.other c (parts c member)
  rw [alone, List.flatMap_singleton']

theorem tokens_flatMap (template : List Char) :
    tokens digits (template.flatMap f) = (tokens digits template).flatMap (rewritten f) := by
  induction template using tokens_induction digits with
  | nil => rfl
  | text c rest unmarked ih =>
    have after : (tokens digits (c :: rest)).flatMap (rewritten f) =
        (f c).map .text ++ tokens digits (rest.flatMap f) := by
      rw [tokens_text unmarked, List.flatMap_cons, ih]
      rfl
    rw [after]
    by_cases plain : Plain digits c
    · have free : '%' ∉ f c := fun member => ((keeps.plain c plain).2 '%' member).1 rfl
      rw [List.flatMap_cons, tokens_free _ free]
    · have still := keeps.markerAt_flatMap (c :: rest)
      rw [keeps.flatMap_other plain, unmarked] at still
      rw [keeps.flatMap_other plain, tokens_text still, keeps.other c plain]
      rfl
  | marker number spelling rest marked ih =>
    have still := keeps.markerAt_flatMap (spelling ++ rest)
    rw [List.flatMap_append, keeps.flatMap_spelling marked, marked] at still
    rw [List.flatMap_append, keeps.flatMap_spelling marked, tokens_marker still, tokens_marker marked,
      List.flatMap_cons, ih]
    rfl

end KeepsMarkers

/-! ## Filling -/

section Fill
variable (number : Nat) (argument : List Char)

theorem fill_append (first second : List Token) :
    fill number argument (first ++ second) = fill number argument first ++ fill number argument second :=
  List.flatMap_append

theorem fill_texts (run : List Char) : fill number argument (run.map .text) = run := by
  rw [fill, List.flatMap_map]
  exact List.flatMap_singleton' run

@[simp] theorem fill_text (c : Char) (rest : List Token) :
    fill number argument (.text c :: rest) = c :: fill number argument rest := rfl

theorem fill_marker (other : Nat) (spelling : List Char) (rest : List Token) :
    fill number argument (.marker other spelling :: rest) =
      (if other = number then argument else spelling) ++ fill number argument rest := rfl

theorem mem_fill {template : List Char} {c : Char} (member : c ∈ fill number argument (tokens digits template)) :
    c ∈ argument ∨ c ∈ template := by
  induction template using tokens_induction digits with
  | nil => cases member
  | text d rest unmarked ih =>
    rw [tokens_text unmarked, fill_text] at member
    rcases List.mem_cons.mp member with rfl | inside
    · exact .inr List.mem_cons_self
    · exact (ih inside).imp_right (List.mem_cons_of_mem d)
  | marker other spelling rest marked ih =>
    rw [tokens_marker marked, fill_marker] at member
    rcases List.mem_append.mp member with here | inside
    · split at here
      · exact .inl here
      · exact .inr (List.mem_append_left rest here)
    · exact (ih inside).imp_right (List.mem_append_right spelling)

/-- Rewriting before or after an argument is put in makes no difference. -/
theorem KeepsMarkers.fill_flatMap {f : Char → List Char} (keeps : KeepsMarkers digits f) (template : List Char) :
    fill number (argument.flatMap f) (tokens digits (template.flatMap f)) =
      (fill number argument (tokens digits template)).flatMap f := by
  rw [keeps.tokens_flatMap]
  induction template using tokens_induction digits with
  | nil => rfl
  | text c rest unmarked ih =>
    rw [tokens_text unmarked, List.flatMap_cons, fill_append, ih, rewritten, fill_texts, fill_text, List.flatMap_cons]
  | marker other spelling rest marked ih =>
    rw [tokens_marker marked, List.flatMap_cons, fill_append, ih, rewritten, fill_marker, fill_marker,
      List.flatMap_append]
    split
    · rw [fill, List.flatMap_nil, List.append_nil]
    · rw [fill, List.flatMap_nil, List.append_nil, keeps.flatMap_spelling marked]

/-- How far it is to the first percent sign. -/
private def lead : List Char → Nat
  | [] => 0
  | c :: rest => if c = '%' then 0 else lead rest + 1

private theorem lead_append {run : List Char} (rest : List Char) (free : '%' ∉ run) :
    lead (run ++ rest) = run.length + lead rest := by
  induction run with
  | nil => simp
  | cons c run ih =>
    have apart : c ≠ '%' := fun same => free (same ▸ List.mem_cons_self)
    rw [List.cons_append, lead, if_neg apart, ih fun member => free (List.mem_cons_of_mem c member), List.length_cons]
    omega

/-- An argument that starts with a percent sign, as a marker does, leaves it where it is. -/
private theorem lead_fill (run template : List Char) :
    lead (fill number ('%' :: run) (tokens digits template)) = lead template := by
  induction template using tokens_induction digits with
  | nil => rfl
  | text c rest unmarked ih => rw [tokens_text unmarked, fill_text, lead, lead, ih]
  | marker other spelling rest marked ih =>
    obtain ⟨tail, _, rfl, _⟩ := markerAt_spelling marked
    rw [tokens_marker marked, fill_marker]
    split <;> rfl

/-- Each place gives up one percent sign for those of the argument. -/
private theorem count_fill (template : List Char) :
    (fill number argument (tokens digits template)).count '%' +
        (tokens digits template).countP (Token.numbered number) =
      template.count '%' + argument.count '%' * (tokens digits template).countP (Token.numbered number) := by
  induction template using tokens_induction digits with
  | nil => simp [fill]
  | text c rest unmarked ih =>
    rw [tokens_text unmarked, fill_text, List.countP_cons_of_neg (by simp [Token.numbered]), List.count_cons,
      List.count_cons]
    omega
  | marker other spelling rest marked ih =>
    obtain ⟨tail, _, shape, _, free, _⟩ := markerAt_spelling marked
    have single : spelling.count '%' = 1 := by
      rw [shape, List.count_cons_self, List.count_eq_zero_of_not_mem free]
    rw [tokens_marker marked, fill_marker, List.count_append, List.count_append, single]
    by_cases here : other = number
    · rw [if_pos here, List.countP_cons_of_pos (by simp [Token.numbered, here]), Nat.mul_add]
      omega
    · rw [if_neg here, List.countP_cons_of_neg (by simp [Token.numbered, here]), single]
      omega

/-- The first marker replaced by an argument that leaves the whole as it is. Counting
percent signs, the argument has one; it stands in front, and from there to the next
percent sign argument and marker are equally long. -/
private theorem fill_marker_spelling {spelling rest : List Char} {number : Nat} {argument : List Char}
    (marked : markerAt digits (spelling ++ rest) = some (number, spelling))
    (same : argument ++ fill number argument (tokens digits rest) = spelling ++ rest) : spelling = argument := by
  have counted := @count_fill digits number argument (spelling ++ rest)
  rw [tokens_marker marked, fill_marker, if_pos rfl, same,
    List.countP_cons_of_pos (by simp [Token.numbered])] at counted
  have once : argument.count '%' = 1 := by
    apply Nat.eq_of_mul_eq_mul_right (Nat.succ_pos ((tokens digits rest).countP (Token.numbered number)))
    rw [Nat.one_mul, Nat.succ_eq_add_one]
    omega
  obtain ⟨tail, _, rfl, _, free, _⟩ := markerAt_spelling marked
  cases argument with
  | nil => cases once
  | cons c run =>
    rw [List.cons_append, List.cons_append] at same
    obtain ⟨rfl, behind⟩ := List.cons.inj same
    have runFree : '%' ∉ run := by
      rw [List.count_cons_self] at once
      exact List.count_eq_zero.mp (by omega)
    have lengths := congrArg lead behind
    rw [lead_append _ runFree, lead_append _ free, lead_fill] at lengths
    rw [(List.append_inj behind (by omega)).1]

/-- An argument leaves the template as it is exactly when every marker it replaces is
spelled like it. -/
theorem fill_eq_self_iff (template : List Char) :
    fill number argument (tokens digits template) = template ↔
      ∀ spelling, .marker number spelling ∈ tokens digits template → spelling = argument := by
  induction template using tokens_induction digits with
  | nil => simp [fill]
  | text c rest unmarked ih =>
    rw [tokens_text unmarked, fill_text, List.cons_inj_right, ih]
    simp
  | marker other spelling rest marked ih =>
    rw [tokens_marker marked, fill_marker]
    by_cases here : other = number
    · subst here
      rw [if_pos rfl]
      constructor
      · intro same
        have spelled : spelling = argument := fill_marker_spelling marked same
        subst spelled
        have later := ih.mp (List.append_cancel_left same)
        intro other member
        rcases List.mem_cons.mp member with first | inside
        · cases first
          rfl
        · exact later other inside
      · intro all
        have spelled := all spelling List.mem_cons_self
        subst spelled
        rw [ih.mpr fun other inside => all other (List.mem_cons_of_mem _ inside)]
    · rw [if_neg here, List.append_cancel_left_eq, ih]
      simp [Ne.symm here]

end Fill

/-! ## The lowest number -/

theorem mem_numbers {list : List Token} {number : Nat} :
    number ∈ list.filterMap Token.number? ↔ ∃ spelling, .marker number spelling ∈ list := by
  rw [List.mem_filterMap]
  constructor
  · rintro ⟨token, member, read⟩
    cases token with
    | text c => cases read
    | marker other spelling =>
      cases read
      exact ⟨spelling, member⟩
  · rintro ⟨spelling, member⟩
    exact ⟨_, member, rfl⟩

/-- An argument goes to the markers with the lowest number. -/
theorem arg_eq_fill {template argument : List Char} {number : Nat} {spelling : List Char}
    (marked : .marker number spelling ∈ tokens digits template)
    (least : ∀ other spelling, .marker other spelling ∈ tokens digits template → number ≤ other) :
    arg digits template argument = fill number argument (tokens digits template) := by
  have here : lowest (tokens digits template) = some number := by
    rw [lowest, List.min?_eq_some_iff]
    refine ⟨mem_numbers.mpr ⟨spelling, marked⟩, fun other member => ?_⟩
    obtain ⟨spelled, listed⟩ := mem_numbers.mp member
    exact least other spelled listed
  rw [arg, here]

theorem KeepsMarkers.lowest_flatMap {f : Char → List Char} (keeps : KeepsMarkers digits f) (template : List Char) :
    lowest (tokens digits (template.flatMap f)) = lowest (tokens digits template) := by
  have numbers (token : Token) : (rewritten f token).filterMap Token.number? = token.number?.toList := by
    cases token with
    | text c => simp [rewritten, Token.number?, List.filterMap_map, Function.comp_def]
    | marker number spelling => rfl
  rw [lowest, keeps.tokens_flatMap, List.filterMap_flatMap]
  simp only [numbers]
  rw [lowest, List.filterMap_eq_flatMap_toList]

/-- A marker before a plain character. -/
theorem tokens_slot {d c : Char} {number : Nat} (digit : digits.value d = some number) (notL : d ≠ 'L')
    (plain : Plain digits c) (rest : List Char) :
    tokens digits ('%' :: d :: c :: rest) = .marker number ['%', d] :: .text c :: tokens digits rest := by
  have marked : markerAt digits (['%', d] ++ c :: rest) = some (number, ['%', d]) := by
    rw [List.cons_append, List.singleton_append, markerAt_percent, if_neg notL]
    simp [digitsAt, digit, plain.2.2]
  exact (tokens_marker marked).trans (congrArg _ (tokens_plain rest plain))

/-- The only marker with the lowest number, and no marker before it. -/
theorem arg_slot {before rest argument : List Char} {d c : Char} {number : Nat} (free : '%' ∉ before)
    (digit : digits.value d = some number) (notL : d ≠ 'L') (plain : Plain digits c)
    (later : ∀ other spelling, .marker other spelling ∈ tokens digits rest → number < other) :
    arg digits (before ++ '%' :: d :: c :: rest) argument = before ++ (argument ++ c :: rest) := by
  have cut : tokens digits (before ++ '%' :: d :: c :: rest) =
      before.map .text ++ .marker number ['%', d] :: .text c :: tokens digits rest := by
    rw [tokens_free _ free, tokens_slot digit notL plain]
  have kept : fill number argument (tokens digits rest) = rest := by
    rw [fill_eq_self_iff]
    intro spelling member
    exact absurd (later number spelling member) (Nat.lt_irrefl number)
  have least : ∀ other spelling, .marker other spelling ∈ tokens digits (before ++ '%' :: d :: c :: rest) →
      number ≤ other := by
    intro other spelling member
    rw [cut] at member
    simp only [List.mem_append, List.mem_map, reduceCtorEq, and_false, exists_false, false_or, List.mem_cons,
      Token.marker.injEq] at member
    rcases member with ⟨rfl, _⟩ | member
    · exact Nat.le_refl other
    · exact Nat.le_of_lt (later other spelling member)
  have marked : .marker number ['%', d] ∈ tokens digits (before ++ '%' :: d :: c :: rest) := by
    rw [cut]
    simp
  rw [arg_eq_fill marked least, cut, fill_append, fill_texts, fill_marker, if_pos rfl, fill_text, kept]

private theorem min?_append_singleton (numbers : List Nat) (number : Nat) :
    (numbers ++ [number]).min? = some (numbers.min?.elim number (min number)) := by
  cases lowestOf : numbers.min? with
  | none =>
    rw [List.min?_eq_none_iff.mp lowestOf]
    rfl
  | some least =>
    obtain ⟨member, below⟩ := List.min?_eq_some_iff.mp lowestOf
    rw [List.min?_eq_some_iff]
    dsimp only [Option.elim_some]
    constructor
    · rcases Nat.le_total number least with small | small
      · rw [Nat.min_eq_left small]
        exact List.mem_append_right _ (List.mem_singleton_self number)
      · rw [Nat.min_eq_right small]
        exact List.mem_append_left _ member
    · intro other inside
      rcases List.mem_append.mp inside with earlier | last
      · exact Nat.le_trans (Nat.min_le_right number least) (below other earlier)
      · rw [List.mem_singleton.mp last]
        exact Nat.min_le_left number least

/-- The number an argument goes to when a text stands before the last marker. -/
def taken (digits : Digits) (text : List Char) (number : Nat) : Nat :=
  (lowest (tokens digits text)).elim number (min number)

theorem taken_le {text spelling : List Char} {number other : Nat}
    (marked : .marker other spelling ∈ tokens digits text) : taken digits text number ≤ other := by
  have member := mem_numbers.mpr ⟨spelling, marked⟩
  unfold taken
  cases lowestOf : lowest (tokens digits text) with
  | none =>
    rw [lowest, List.min?_eq_none_iff] at lowestOf
    rw [lowestOf] at member
    cases member
  | some least =>
    exact Nat.le_trans (Nat.min_le_right number least) ((List.min?_eq_some_iff.mp lowestOf).2 other member)

theorem taken_cases (text : List Char) (number : Nat) :
    taken digits text number = number ∨
      ∃ spelling, .marker (taken digits text number) spelling ∈ tokens digits text := by
  unfold taken
  cases lowestOf : lowest (tokens digits text) with
  | none => exact .inl rfl
  | some least =>
    dsimp only [Option.elim_some]
    rcases Nat.le_total number least with small | small
    · exact .inl (Nat.min_eq_left small)
    · rw [Nat.min_eq_right small]
      exact .inr (mem_numbers.mp (List.min?_eq_some_iff.mp lowestOf).1)

theorem taken_le_number (text : List Char) (number : Nat) : taken digits text number ≤ number := by
  unfold taken
  cases lowest (tokens digits text) with
  | none => exact Nat.le_refl number
  | some least => exact Nat.min_le_left number least

/-- A text put in before the last marker: its own markers take the argument first. -/
theorem arg_last {before text argument : List Char} {b c d : Char} {number : Nat} (free : '%' ∉ before)
    (digit : digits.value d = some number) (notL : d ≠ 'L') (border : Plain digits b) (plain : Plain digits c) :
    arg digits (before ++ (text ++ b :: '%' :: d :: [c])) argument =
      before ++ (fill (taken digits text number) argument (tokens digits text) ++
        b :: ((if taken digits text number = number then argument else ['%', d]) ++ [c])) := by
  have cut : tokens digits (before ++ (text ++ b :: '%' :: d :: [c])) =
      before.map .text ++ (tokens digits text ++ .text b :: .marker number ['%', d] :: .text c :: []) := by
    rw [tokens_free _ free, tokens_append border, tokens_slot digit notL plain]
    rfl
  have here : lowest (tokens digits (before ++ (text ++ b :: '%' :: d :: [c]))) = some (taken digits text number) := by
    have numbers : (tokens digits (before ++ (text ++ b :: '%' :: d :: [c]))).filterMap Token.number? =
        (tokens digits text).filterMap Token.number? ++ [number] := by
      rw [cut, List.filterMap_append, List.filterMap_append, List.filterMap_map]
      simp [Function.comp_def, Token.number?]
      rfl
    rw [lowest, numbers, taken]
    exact min?_append_singleton _ number
  have filled : arg digits (before ++ (text ++ b :: '%' :: d :: [c])) argument =
      fill (taken digits text number) argument (tokens digits (before ++ (text ++ b :: '%' :: d :: [c]))) := by
    rw [arg, here]
  rw [filled, cut, fill_append, fill_texts, fill_append, fill_text, fill_marker, fill_text]
  simp only [eq_comm]
  rfl

end Lib.Template
