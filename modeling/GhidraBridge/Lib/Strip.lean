import Mathlib.Data.List.Basic

/-! Words taken off the front of a text, one after the other, until none of them
stands there. Where no word begins another one, what is left does not depend on the
order in which the words are tried. -/
namespace Lib.Strip
variable {A : Type u} {words : List (List A)}

/-- A text made of words of the list. -/
def Run (words : List (List A)) (run : List (List A)) : Prop := ∀ word ∈ run, word ∈ words

/-- No word stands in front of the text. -/
def Bare (words : List (List A)) (text : List A) : Prop := ∀ word ∈ words, ¬word <+: text

/-- Words that are not empty and none of which begins another one. -/
structure PrefixCode (words : List (List A)) : Prop where
  solid : ∀ word ∈ words, word ≠ []
  apart : ∀ word ∈ words, ∀ other ∈ words, word <+: other → word = other

/-- Of two words in front of one text each is the other. -/
theorem PrefixCode.eq_of_prefix (code : PrefixCode words) {word other text : List A} (listed : word ∈ words)
    (otherListed : other ∈ words) (front : word <+: text) (otherFront : other <+: text) : word = other := by
  rcases List.prefix_or_prefix_of_prefix front otherFront with shorter | longer
  · exact code.apart word listed other otherListed shorter
  · exact (code.apart other otherListed word listed longer).symm

/-- What is left when words are taken off until none stands in front. -/
theorem PrefixCode.rest_unique (code : PrefixCode words) {run other : List (List A)} {rest otherRest : List A}
    (listed : Run words run) (otherListed : Run words other) (bare : Bare words rest)
    (otherBare : Bare words otherRest) (same : run.flatten ++ rest = other.flatten ++ otherRest) :
    rest = otherRest := by
  induction run generalizing other with
  | nil =>
    cases other with
    | nil => simpa using same
    | cons word more =>
      refine absurd ?_ (bare word (otherListed word List.mem_cons_self))
      rw [show rest = word ++ (more.flatten ++ otherRest) by simpa using same]
      exact List.prefix_append _ _
  | cons first run ih =>
    have here := listed first List.mem_cons_self
    have front : first <+: other.flatten ++ otherRest := by
      rw [← same, List.flatten_cons, List.append_assoc]
      exact List.prefix_append _ _
    cases other with
    | nil => exact absurd (by simpa using front) (otherBare first here)
    | cons word more =>
      have there := otherListed word List.mem_cons_self
      have matched : first = word := by
        refine code.eq_of_prefix here there front ?_
        rw [List.flatten_cons, List.append_assoc]
        exact List.prefix_append _ _
      subst matched
      refine ih (fun other member => listed other (List.mem_cons_of_mem _ member))
        (fun other member => otherListed other (List.mem_cons_of_mem _ member)) ?_
      simpa using same

/-! ## One round -/

section
variable [BEq A] [LawfulBEq A]

/-- Each word in turn, taken off once where it stands in front. -/
def stripEach (words : List (List A)) (text : List A) : List A :=
  words.foldl (fun s word => if word.isPrefixOf s then s.drop word.length else s) text

omit [LawfulBEq A] in
theorem stripEach_cons (word : List A) (rest : List (List A)) (text : List A) :
    stripEach (word :: rest) text =
      stripEach rest (if word.isPrefixOf text then text.drop word.length else text) := rfl

/-- A round takes off a run of words. -/
theorem stripEach_run (words : List (List A)) (text : List A) :
    ∃ run, Run words run ∧ text = run.flatten ++ stripEach words text := by
  induction words generalizing text with
  | nil => exact ⟨[], by simp [Run], rfl⟩
  | cons word rest ih =>
    rw [stripEach_cons]
    by_cases stands : word.isPrefixOf text
    · obtain ⟨left, rfl⟩ := List.isPrefixOf_iff_prefix.mp stands
      obtain ⟨run, listed, shape⟩ := ih left
      refine ⟨word :: run, ?_, ?_⟩
      · exact List.forall_mem_cons.mpr
          ⟨List.mem_cons_self, fun other member => List.mem_cons_of_mem word (listed other member)⟩
      · rw [if_pos stands, List.drop_left, List.flatten_cons, List.append_assoc, ← shape]
    · obtain ⟨run, listed, shape⟩ := ih text
      refine ⟨run, fun other member => List.mem_cons_of_mem word (listed other member), ?_⟩
      rw [if_neg stands]
      exact shape

theorem length_stripEach_le (words : List (List A)) (text : List A) :
    (stripEach words text).length ≤ text.length := by
  obtain ⟨run, -, shape⟩ := stripEach_run words text
  have total := congrArg List.length shape
  rw [List.length_append] at total
  omega

/-- A round that shortens nothing met no word. -/
theorem bare_of_kept (solid : ∀ word ∈ words, word ≠ []) {text : List A}
    (kept : ¬(stripEach words text).length < text.length) : Bare words text ∧ stripEach words text = text := by
  induction words with
  | nil => exact ⟨by simp [Bare], rfl⟩
  | cons word rest ih =>
    by_cases stands : word.isPrefixOf text
    · obtain ⟨left, rfl⟩ := List.isPrefixOf_iff_prefix.mp stands
      have shorter := length_stripEach_le rest left
      have positive := List.length_pos_iff.mpr (solid word List.mem_cons_self)
      refine absurd ?_ kept
      rw [stripEach_cons, if_pos stands, List.drop_left, List.length_append]
      omega
    · rw [stripEach_cons, if_neg stands] at kept ⊢
      obtain ⟨bare, fixed⟩ := ih (fun other member => solid other (List.mem_cons_of_mem _ member)) kept
      exact ⟨List.forall_mem_cons.mpr ⟨fun front => stands (List.isPrefixOf_iff_prefix.mpr front), bare⟩, fixed⟩

end

end Lib.Strip
