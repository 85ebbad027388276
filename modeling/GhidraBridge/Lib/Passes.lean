import Mathlib.Data.List.Nodup
import Mathlib.Data.List.Basic
import Mathlib.Logic.Function.Basic

/-! Values found by passes over a list of rules. A rule has a key of its own and makes the
value of its key from a given value or from that of another key, if it is known by then. In
one pass a rule sees what the rules before it have found, and of those behind it what an
earlier pass has. -/
namespace Lib.Passes
variable {K : Type u} {V : Type v} [DecidableEq K]

structure Rule (K : Type u) (V : Type v) where
  key : K
  source : V ⊕ K
  make : V → Option V

/-- The value of a rule, from the values known. -/
def Rule.value (rule : Rule K V) (known : K → Option V) : Option V := (rule.source.elim some known).bind rule.make

/-- A key that is known is left alone. -/
def step (known : K → Option V) (rule : Rule K V) : K → Option V :=
  if (known rule.key).isSome then known
  else
    match rule.value known with
    | some value => Function.update known rule.key (some value)
    | none => known

def pass (rules : List (Rule K V)) (known : K → Option V) : K → Option V := rules.foldl step known

/-- The first of two elements stands before the second. -/
def precedes {A : Type w} [DecidableEq A] (elements : List A) (first second : A) : Bool :=
  first ∈ elements.takeWhile fun e => e ≠ second

/-- A list, cut at the first occurrence of an element. -/
theorem exists_cut {A : Type w} [DecidableEq A] {elements : List A} {element : A} (member : element ∈ elements) :
    ∃ after, elements = (elements.takeWhile fun e => e ≠ element) ++ element :: after := by
  induction elements with
  | nil => cases member
  | cons first rest ih =>
    by_cases here : first = element
    · subst here
      exact ⟨rest, by simp⟩
    · obtain ⟨after, cut⟩ := ih ((List.mem_cons.mp member).resolve_left (Ne.symm here))
      refine ⟨after, ?_⟩
      rw [List.takeWhile_cons_of_pos (by simpa using here), List.cons_append, ← cut]

variable {rules before after : List (Rule K V)} {rule : Rule K V} {known : K → Option V} {key : K}

theorem step_of_ne (other : key ≠ rule.key) : step known rule key = known key := by
  unfold step
  split
  · rfl
  · cases rule.value known with
    | none => rfl
    | some value => exact Function.update_of_ne other _ _

theorem step_of_known (held : (known rule.key).isSome = true) : step known rule = known := if_pos held

theorem step_self (unknown : known rule.key = none) : step known rule rule.key = rule.value known := by
  unfold step
  rw [unknown]
  cases found : rule.value known with
  | none => simp [unknown]
  | some value => simp

theorem pass_of_not_mem (absent : key ∉ rules.map Rule.key) : pass rules known key = known key := by
  induction rules generalizing known with
  | nil => rfl
  | cons rule rest ih =>
    rw [List.map_cons, List.mem_cons, not_or] at absent
    rw [pass, List.foldl_cons, ← pass, ih absent.2, step_of_ne absent.1]

/-- What is known stays. -/
theorem pass_of_known {value : V} (held : known key = some value) : pass rules known key = some value := by
  induction rules generalizing known with
  | nil => exact held
  | cons rule rest ih =>
    rw [pass, List.foldl_cons, ← pass]
    apply ih
    by_cases here : key = rule.key
    · subst here
      rw [step_of_known (by simp [held]), held]
    · rw [step_of_ne here, held]

/-- What a pass finds for the key of a rule. -/
theorem pass_apply (once : (rules.map Rule.key).Nodup) (split : rules = before ++ rule :: after)
    (unknown : known rule.key = none) :
    pass rules known rule.key =
      (rule.source.elim some fun key =>
        if key ∈ before.map Rule.key then pass rules known key else known key).bind rule.make := by
  subst split
  rw [List.map_append, List.map_cons] at once
  have apart : ∀ key ∈ before.map Rule.key, key ∉ (rule :: after).map Rule.key := fun key member held =>
    (List.disjoint_of_nodup_append once) member held
  have own : rule.key ∉ before.map Rule.key := fun member => apart rule.key member (by simp)
  have later : rule.key ∉ after.map Rule.key := (List.nodup_cons.mp once.of_append_right).1
  have whole (known : K → Option V) : pass (before ++ rule :: after) known =
      pass after (step (pass before known) rule) := by
    rw [pass, List.foldl_append, List.foldl_cons]
    rfl
  -- the rules from here on leave the keys of those before alone
  have front (key : K) : pass before known key =
      if key ∈ before.map Rule.key then pass (before ++ rule :: after) known key else known key := by
    split
    · rename_i member
      have ⟨other, behind⟩ : key ≠ rule.key ∧ key ∉ after.map Rule.key := by
        have both := apart key member
        rw [List.map_cons, List.mem_cons, not_or] at both
        exact both
      rw [whole, pass_of_not_mem behind, step_of_ne other]
    · rename_i absent
      exact pass_of_not_mem absent
  have fresh : pass before known rule.key = none := (pass_of_not_mem own).trans unknown
  calc
    pass (before ++ rule :: after) known rule.key = rule.value (pass before known) := by
      rw [whole, pass_of_not_mem later, step_self fresh]
    _ = _ := by rw [Rule.value, funext front]

/-- The same for rules that come from the rows of a table. -/
theorem pass_row {A : Type w} [DecidableEq A] {toRule : A → Rule K V} {rows : List A} {row : A}
    (once : ((rows.map toRule).map Rule.key).Nodup) (member : row ∈ rows) (unknown : known (toRule row).key = none) :
    pass (rows.map toRule) known (toRule row).key =
      ((toRule row).source.elim some fun key =>
        if key ∈ (rows.takeWhile fun r => r ≠ row).map fun r => (toRule r).key then pass (rows.map toRule) known key
        else known key).bind (toRule row).make := by
  obtain ⟨after, cut⟩ := exists_cut member
  have split : rows.map toRule =
      (rows.takeWhile fun r => r ≠ row).map toRule ++ toRule row :: after.map toRule := by
    rw [← List.map_cons, ← List.map_append, ← cut]
  rw [pass_apply once split unknown, List.map_map]
  rfl

end Lib.Passes
