import Mathlib.Data.List.Basic
import Mathlib.Logic.Function.Basic

/-! Loops that count the items they work off. Each kind of items has a loop of its own, the
loops run one after another on one program, and each reports a number. What an item asks for
is a predicate on the program. If every step that counts an item brings about what the item
asks for, and takes nothing of what earlier items asked for and got, then at the end there
are at least as many items of each kind with what they asked for as its loop reports. -/
namespace Lib.Tally
variable {Q A C : Type}

/-- A loop over an array of items. It may look at the whole array before it takes the first
item, and it goes by what the program was then. -/
structure Loop (Q A : Type) where
  S : Type
  enter : Q → List A → Option S
  step : Q → S → A → Option S
  program : Q → S → Q
  count : S → Nat

def Loop.run (loop : Loop Q A) (q : Q) (items : List A) : Option (Q × Nat) := do
  let entered ← loop.enter q items
  let final ← items.foldlM (loop.step q) entered
  return (loop.program q final, loop.count final)

section
variable [DecidableEq C] (loop : C → Loop Q A) (request : C → List A)

/-- The loops of some kinds, one after another, and the number each of them reports. -/
def runAll : List C → Q → Option (Q × (C → Nat))
  | [], q => some (q, fun _ => 0)
  | c :: rest, q => do
    let done ← (loop c).run q (request c)
    let final ← runAll rest done.1
    return (final.1, Function.update final.2 c done.2)

end

open Classical in
/-- How many items have what they ask for. -/
noncomputable def number (present : A → Prop) (items : List A) : Nat := items.countP fun a => decide (present a)

theorem number_cons (present : A → Prop) (a : A) (items : List A) :
    (present a ∧ number present (a :: items) = number present items + 1) ∨
      (¬present a ∧ number present (a :: items) = number present items) := by
  by_cases held : present a
  · exact .inl ⟨held, List.countP_cons_of_pos (by simpa using held)⟩
  · exact .inr ⟨held, List.countP_cons_of_neg (by simpa using held)⟩

theorem number_mono {before after : A → Prop} {items : List A} (kept : ∀ a ∈ items, before a → after a) :
    number before items ≤ number after items := by
  refine List.countP_mono_left fun a member held => ?_
  simp only [decide_eq_true_eq] at held ⊢
  exact kept a member held

section Steps
variable (present : C → Q → A → Prop)

/-- What the items have of what they ask for, they still have. -/
def Keeps (past : List (C × A)) (before after : Q) : Prop :=
  ∀ item ∈ past, present item.1 before item.2 → present item.1 after item.2

/-- Each item of a loop meets the condition when its turn comes. The condition may look at
the items before it and at the program before the loop and before the turn. -/
def StepsMeet (meets : List (C × A) → Q → Q → A → Prop) (c : C) (loop : Loop Q A) (q : Q) :
    List (C × A) → loop.S → List A → Prop
  | _, _, [] => True
  | past, s, a :: rest =>
    meets past q (loop.program q s) a ∧
      ∀ next, loop.step q s a = some next → StepsMeet meets c loop q (past ++ [(c, a)]) next rest

/-- The same for the loops of some kinds. -/
def AllMeet (meets : C → List (C × A) → Q → Q → A → Prop) (loop : C → Loop Q A) (request : C → List A) :
    List (C × A) → List C → Q → Prop
  | _, [], _ => True
  | past, c :: rest, q =>
    (∀ entered, (loop c).enter q (request c) = some entered →
      StepsMeet (meets c) c (loop c) q past entered (request c)) ∧
    ∀ done, (loop c).run q (request c) = some done →
      AllMeet meets loop request (past ++ (request c).map (Prod.mk c)) rest done.1

variable {present}

theorem Keeps.refl {past : List (C × A)} {q : Q} : Keeps present past q q := fun _ _ held => held

theorem Keeps.trans {past : List (C × A)} {first second third : Q} (one : Keeps present past first second)
    (two : Keeps present past second third) : Keeps present past first third :=
  fun item member held => two item member (one item member held)

theorem Keeps.of_append {past more : List (C × A)} {before after : Q}
    (kept : Keeps present (past ++ more) before after) :
    Keeps present past before after ∧ Keeps present more before after :=
  ⟨fun item member => kept item (List.mem_append_left more member),
    fun item member => kept item (List.mem_append_right past member)⟩

/-- A loop that leaves the program alone before its first item. -/
def Loop.Still (loop : Loop Q A) : Prop :=
  ∀ q items entered, loop.enter q items = some entered → loop.program q entered = q

/-- A loop counts honestly: it starts from 0, a step that meets the condition counts an item
only if the item has what it asks for then, and earlier items keep what they have. -/
structure Loop.Honest (loop : Loop Q A) (meets : List (C × A) → Q → Q → A → Prop) (present : C → Q → A → Prop)
    (c : C) : Prop where
  zero : ∀ {q items entered}, loop.enter q items = some entered → loop.count entered = 0
  step : ∀ {past q s a next}, meets past q (loop.program q s) a → loop.step q s a = some next →
    loop.count next = loop.count s ∨ loop.count next = loop.count s + 1 ∧ present c (loop.program q next) a
  keeps : ∀ {past q s a next}, meets past q (loop.program q s) a → loop.step q s a = some next →
    Keeps present past (loop.program q s) (loop.program q next)

variable {meets : List (C × A) → Q → Q → A → Prop} {c : C} {loop : Loop Q A} {q : Q}

/-- One loop. -/
theorem count_le_of_steps (honest : loop.Honest meets present c) {past : List (C × A)} {items : List A}
    {s final : loop.S} (steps : StepsMeet meets c loop q past s items)
    (run : items.foldlM (loop.step q) s = some final) :
    loop.count final ≤ loop.count s + number (present c (loop.program q final)) items ∧
      Keeps present past (loop.program q s) (loop.program q final) := by
  induction items generalizing past s with
  | nil =>
    cases run
    exact ⟨Nat.le_add_right _ _, .refl⟩
  | cons a rest ih =>
    rw [List.foldlM_cons] at run
    obtain ⟨next, stepped, later⟩ := Option.bind_eq_some_iff.mp run
    obtain ⟨met, following⟩ := steps
    obtain ⟨bound, keptRest⟩ := ih (following next stepped) later
    have ⟨keptPast, keptHere⟩ := keptRest.of_append
    refine ⟨?_, (honest.keeps met stepped).trans keptPast⟩
    -- an item that is counted has what it asks for, and keeps it to the end
    rcases honest.step met stepped with same | ⟨more, done⟩
    · rcases number_cons (present c (loop.program q final)) a rest with ⟨-, whole⟩ | ⟨-, whole⟩ <;> omega
    · have atEnd := keptHere (c, a) (List.mem_singleton_self _) done
      rcases number_cons (present c (loop.program q final)) a rest with ⟨-, whole⟩ | ⟨missing, -⟩
      · omega
      · exact absurd atEnd missing

theorem count_le_of_run {items : List A} {past : List (C × A)} {done : Q × Nat}
    (honest : loop.Honest meets present c) (untouched : past = [] ∨ loop.Still)
    (fair : ∀ entered, loop.enter q items = some entered → StepsMeet meets c loop q past entered items)
    (run : loop.run q items = some done) :
    done.2 ≤ number (present c done.1) items ∧ Keeps present past q done.1 := by
  obtain ⟨entered, enters, rest⟩ := Option.bind_eq_some_iff.mp run
  obtain ⟨final, folded, leaves⟩ := Option.bind_eq_some_iff.mp rest
  cases leaves
  obtain ⟨bound, kept⟩ := count_le_of_steps honest (fair entered enters) folded
  rw [honest.zero enters, Nat.zero_add] at bound
  refine ⟨bound, ?_⟩
  rcases untouched with rfl | still
  · exact fun _ member => absurd member List.not_mem_nil
  · rwa [still q items entered enters] at kept

end Steps

/-- All loops, where only the first may change the program before its first item: no number
is more than the items that have what they ask for at the end. -/
theorem counts_le [DecidableEq C] {present : C → Q → A → Prop} {meets : C → List (C × A) → Q → Q → A → Prop}
    {loop : C → Loop Q A} {request : C → List A} (honest : ∀ c, (loop c).Honest (meets c) present c)
    {past : List (C × A)} {order : List C} {q : Q} {final : Q × (C → Nat)}
    (first : past = [] ∨ ∀ c ∈ order, (loop c).Still) (others : ∀ c ∈ order.tail, (loop c).Still)
    (fair : AllMeet meets loop request past order q) (run : runAll loop request order q = some final) :
    (∀ c, final.2 c ≤ number (present c final.1) (request c)) ∧ Keeps present past q final.1 := by
  induction order generalizing past q final with
  | nil =>
    cases run
    exact ⟨fun _ => Nat.zero_le _, .refl⟩
  | cons c rest ih =>
    obtain ⟨done, ran, following⟩ := Option.bind_eq_some_iff.mp run
    obtain ⟨last, ranRest, whole⟩ := Option.bind_eq_some_iff.mp following
    cases whole
    have untouched := first.imp_right fun all => all c (List.mem_cons_self ..)
    obtain ⟨bound, kept⟩ := count_le_of_run (honest c) untouched fair.1 ran
    have still : ∀ other ∈ rest, (loop other).Still := others
    obtain ⟨bounds, keptRest⟩ := ih (.inr still) (fun other member => still other (List.mem_of_mem_tail member))
      (fair.2 done ran) ranRest
    have ⟨keptPast, keptHere⟩ := keptRest.of_append
    refine ⟨fun other => ?_, kept.trans keptPast⟩
    dsimp only
    by_cases here : other = c
    · subst here
      rw [Function.update_self]
      refine Nat.le_trans bound (number_mono fun a member held => ?_)
      exact keptHere (other, a) (List.mem_map_of_mem member) held
    · rw [Function.update_of_ne here]
      exact bounds other

section Always
variable {meets : C → List (C × A) → Q → Q → A → Prop} {loop : C → Loop Q A} {request : C → List A}

/-- Where the condition holds of every item behind any items of the request, whatever the
program is then, it is met in every run. -/
theorem allMeet_of_always
    (always : ∀ c, ∀ a ∈ request c, ∀ past, (∀ item ∈ past, item.2 ∈ request item.1) →
      ∀ before now, meets c past before now a)
    {order : List C} {past : List (C × A)} (known : ∀ item ∈ past, item.2 ∈ request item.1) {q : Q} :
    AllMeet meets loop request past order q := by
  have steps (c : C) (before : Q) (items : List A) (inside : ∀ a ∈ items, a ∈ request c) (past : List (C × A))
      (known : ∀ item ∈ past, item.2 ∈ request item.1) (s : (loop c).S) :
      StepsMeet (meets c) c (loop c) before past s items := by
    induction items generalizing past s with
    | nil => trivial
    | cons a rest ih =>
      have own := inside a List.mem_cons_self
      refine ⟨always c a own past known _ _, fun next _ => ?_⟩
      refine ih (fun b later => inside b (List.mem_cons_of_mem _ later)) _ (fun item member => ?_) next
      rcases List.mem_append.mp member with earlier | last
      · exact known item earlier
      · rw [List.mem_singleton.mp last]
        exact own
  induction order generalizing past q with
  | nil => trivial
  | cons c rest ih =>
    refine ⟨fun entered _ => steps c q _ (fun _ inside => inside) past known entered, fun done _ =>
      ih fun item member => ?_⟩
    rcases List.mem_append.mp member with earlier | last
    · exact known item earlier
    · obtain ⟨a, inside, rfl⟩ := List.mem_map.mp last
      exact inside

end Always

end Lib.Tally
