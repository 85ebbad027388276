import Mathlib.Data.List.DropRight
import Mathlib.Data.List.Induction

/-! Cutting a text at a character: the first or the last occurrence, and the
blanks at its ends. -/
namespace Lib.Scan
variable {A : Type u} [DecidableEq A]

/-- What stands before and after the first occurrence of a character. -/
def splitFirst (mark : A) : List A → Option (List A × List A)
  | [] => none
  | x :: rest =>
    if x = mark then some ([], rest)
    else (splitFirst mark rest).map fun parts => (x :: parts.1, parts.2)

/-- What stands before and after the last occurrence of a character. -/
def splitLast (mark : A) : List A → Option (List A × List A)
  | [] => none
  | x :: rest =>
    match splitLast mark rest with
    | some parts => some (x :: parts.1, parts.2)
    | none => if x = mark then some ([], rest) else none

theorem splitFirst_append {mark : A} {before : List A} (after : List A) (absent : mark ∉ before) :
    splitFirst mark (before ++ mark :: after) = some (before, after) := by
  induction before with
  | nil => simp [splitFirst]
  | cons x rest ih =>
    have here : x ≠ mark := fun same => absent (same ▸ List.mem_cons_self)
    have later : mark ∉ rest := fun member => absent (List.mem_cons_of_mem x member)
    simp [splitFirst, here, ih later]

theorem splitFirst_eq_some {mark : A} {text before after : List A} :
    splitFirst mark text = some (before, after) ↔ text = before ++ mark :: after ∧ mark ∉ before := by
  constructor
  · intro found
    induction text generalizing before with
    | nil => simp [splitFirst] at found
    | cons x rest ih =>
      by_cases here : x = mark
      · subst here
        simp only [splitFirst, if_true, Option.some.injEq, Prod.mk.injEq] at found
        obtain ⟨rfl, rfl⟩ := found
        simp
      · simp only [splitFirst, if_neg here, Option.map_eq_some_iff, Prod.mk.injEq, Prod.exists] at found
        obtain ⟨front, back, inner, rfl, rfl⟩ := found
        obtain ⟨same, absent⟩ := ih inner
        simp [same, absent, Ne.symm here]
  · rintro ⟨rfl, absent⟩
    exact splitFirst_append after absent

theorem splitFirst_eq_none {mark : A} {text : List A} : splitFirst mark text = none ↔ mark ∉ text := by
  constructor
  · intro missing member
    obtain ⟨before, after, rfl, absent⟩ := List.eq_append_cons_of_mem member
    rw [splitFirst_append after absent] at missing
    cases missing
  · intro absent
    cases found : splitFirst mark text with
    | none => rfl
    | some parts =>
      have shape := (splitFirst_eq_some.mp found).1
      exact absurd (by simp [shape]) absent

theorem splitLast_eq_none {mark : A} {text : List A} : splitLast mark text = none ↔ mark ∉ text := by
  induction text with
  | nil => simp [splitLast]
  | cons x rest ih =>
    cases inner : splitLast mark rest with
    | some parts =>
      have member : mark ∈ rest := by
        by_contra absent
        simp [ih.mpr absent] at inner
      simp [splitLast, inner, member]
    | none =>
      have absent := ih.mp inner
      by_cases here : x = mark
      · simp [splitLast, inner, here]
      · simp [splitLast, inner, here, absent, Ne.symm here]

theorem splitLast_append {mark : A} (before : List A) {after : List A} (absent : mark ∉ after) :
    splitLast mark (before ++ mark :: after) = some (before, after) := by
  induction before with
  | nil => simp [splitLast, splitLast_eq_none.mpr absent]
  | cons x rest ih => simp [splitLast, ih]

theorem splitLast_eq_some {mark : A} {text before after : List A} :
    splitLast mark text = some (before, after) ↔ text = before ++ mark :: after ∧ mark ∉ after := by
  constructor
  · intro found
    induction text generalizing before with
    | nil => simp [splitLast] at found
    | cons x rest ih =>
      cases inner : splitLast mark rest with
      | some parts =>
        obtain ⟨front, back⟩ := parts
        simp only [splitLast, inner, Option.some.injEq, Prod.mk.injEq] at found
        obtain ⟨rfl, rfl⟩ := found
        obtain ⟨same, absent⟩ := ih inner
        simp [same, absent]
      | none =>
        by_cases here : x = mark
        · simp only [splitLast, inner, if_pos here, Option.some.injEq, Prod.mk.injEq] at found
          obtain ⟨rfl, rfl⟩ := found
          simp [here, splitLast_eq_none.mp inner]
        · simp [splitLast, inner, here] at found
  · rintro ⟨rfl, absent⟩
    exact splitLast_append before absent

/-- Space and tab. -/
def isBlank (c : Char) : Bool := c = ' ' || c = '\t'

def rtrim (text : List Char) : List Char := text.rdropWhile isBlank

def trim (text : List Char) : List Char := rtrim (text.dropWhile isBlank)

theorem length_rtrim_le (text : List Char) : (rtrim text).length ≤ text.length :=
  (List.rdropWhile_prefix isBlank text).length_le

theorem length_trim_le (text : List Char) : (trim text).length ≤ text.length :=
  (length_rtrim_le _).trans (List.dropWhile_sublist isBlank).length_le

/-- Blanks in front go before a part that neither starts nor ends with one. -/
theorem trim_append {text part : List Char} {first last : Char} (starts : part.head? = some first)
    (ends : part.getLast? = some last) (solid : isBlank first = false) (solidEnd : isBlank last = false) :
    trim (text ++ part) = text.dropWhile isBlank ++ part := by
  have front : (text ++ part).dropWhile isBlank = text.dropWhile isBlank ++ part := by
    rw [List.dropWhile_append]
    split
    · rename_i blank
      obtain ⟨rest, rfl⟩ : ∃ rest, part = first :: rest := by
        cases part with
        | nil => simp at starts
        | cons c rest => exact ⟨rest, by simpa using starts⟩
      rw [List.isEmpty_iff.mp blank]
      simp [solid]
    · rfl
  obtain ⟨body, rfl⟩ : ∃ body, part = body ++ [last] :=
    ⟨part.dropLast, (List.dropLast_append_getLast? last ends).symm⟩
  rw [trim, front, rtrim, ← List.append_assoc, List.rdropWhile_concat_neg _ _ _ (by simp [solidEnd])]

theorem trim_of_solid {part : List Char} {first last : Char} (starts : part.head? = some first)
    (ends : part.getLast? = some last) (solid : isBlank first = false) (solidEnd : isBlank last = false) :
    trim part = part :=
  @trim_append [] part first last starts ends solid solidEnd

@[simp] theorem trim_dropWhile (text : List Char) : trim (text.dropWhile isBlank) = trim text := by
  rw [trim, List.dropWhile_idempotent, trim]

@[simp] theorem trim_rtrim (text : List Char) : trim (rtrim text) = trim text := by
  induction text using List.reverseRecOn with
  | nil => rfl
  | append_singleton front last ih =>
    by_cases blank : isBlank last = true
    · rw [rtrim, List.rdropWhile_concat_pos _ _ _ blank]
      rw [rtrim] at ih
      rw [ih, trim, trim, List.dropWhile_append]
      split
      · rename_i empty
        simp [List.isEmpty_iff.mp empty, blank]
      · rw [rtrim, rtrim, List.rdropWhile_concat_pos _ _ _ blank]
    · rw [rtrim, List.rdropWhile_concat_neg _ _ _ blank]

@[simp] theorem trim_trim (text : List Char) : trim (trim text) = trim text :=
  (trim_rtrim _).trans (trim_dropWhile text)

theorem rtrim_append_blanks (text : List Char) {blanks : List Char} (blank : ∀ c ∈ blanks, isBlank c = true) :
    rtrim (text ++ blanks) = rtrim text := by
  induction blanks using List.reverseRecOn with
  | nil => simp
  | append_singleton front last ih =>
    have final : isBlank last = true := blank last (by simp)
    rw [← List.append_assoc, rtrim, List.rdropWhile_concat_pos _ _ _ final]
    exact ih fun c member => blank c (by simp [member])

theorem trim_append_blanks (text : List Char) {blanks : List Char} (blank : ∀ c ∈ blanks, isBlank c = true) :
    trim (text ++ blanks) = trim text := by
  rw [← trim_rtrim, rtrim_append_blanks _ blank, trim_rtrim]

/-- Blanks at either end do not matter to what is trimmed. -/
theorem trim_surrounded {before after : List Char} (text : List Char) (blank : ∀ c ∈ before, isBlank c = true)
    (blankAfter : ∀ c ∈ after, isBlank c = true) : trim (before ++ text ++ after) = trim text := by
  rw [trim_append_blanks _ blankAfter, ← trim_dropWhile, List.dropWhile_append_of_pos blank, trim_dropWhile]

theorem rtrim_split (text : List Char) :
    ∃ blanks, (∀ c ∈ blanks, isBlank c = true) ∧ text = rtrim text ++ blanks := by
  refine ⟨(text.reverse.takeWhile isBlank).reverse, fun c member => ?_, ?_⟩
  · exact List.mem_takeWhile_imp (List.mem_reverse.mp member)
  · rw [rtrim, List.rdropWhile, ← List.reverse_append, List.takeWhile_append_dropWhile, List.reverse_reverse]

/-- Only the end is trimmed of a text that starts with no blank. -/
theorem trim_eq_rtrim {text : List Char} (front : ∀ c, text.head? = some c → isBlank c = false) :
    trim text = rtrim text := by
  cases text with
  | nil => rfl
  | cons c rest => rw [trim, List.dropWhile_cons_of_neg (by simp [front c rfl])]

/-- A text is blank, or what is trimmed of it starts and ends with no blank. -/
theorem trim_cases (text : List Char) :
    trim text = [] ∨ ∃ first last, (trim text).head? = some first ∧ (trim text).getLast? = some last ∧
      isBlank first = false ∧ isBlank last = false := by
  by_cases empty : trim text = []
  · exact .inl empty
  · have last := List.rdropWhile_last_not isBlank (text.dropWhile isBlank) empty
    have whole : text.dropWhile isBlank ≠ [] := fun gone => empty (by rw [trim, gone]; rfl)
    have first := List.head_dropWhile_not isBlank whole
    have front : trim text <+: text.dropWhile isBlank := List.rdropWhile_prefix isBlank _
    refine .inr ⟨(trim text).head empty, (trim text).getLast empty, List.head?_eq_some_head empty,
      List.getLast?_eq_some_getLast empty, ?_, Bool.eq_false_iff.mpr last⟩
    rwa [front.head empty]

/-- What holds of the characters of a text is decided along the text, not over all
characters there are. -/
instance (priority := 10000) decidableForallMem (text : List Char) (p : Char → Prop) [DecidablePred p] :
    Decidable (∀ c ∈ text, p c) := List.decidableBAll p text

end Lib.Scan
