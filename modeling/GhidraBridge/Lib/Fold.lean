/-! Folds: what every step keeps, and steps that may fail. -/
namespace Lib.Fold
variable {S : Type u} {A : Type v} {B : Type w}

/-- What no step of a run changes is the same at its end. -/
theorem foldl_keeps {step : S → A → S} {read : S → B} (each : ∀ s item, read (step s item) = read s)
    (items : List A) (start : S) : read (items.foldl step start) = read start := by
  induction items generalizing start with
  | nil => rfl
  | cons item rest ih => rw [List.foldl_cons, ih, each]

/-- A state that no step changes stays. -/
theorem foldl_fixed {step : S → A → S} {items : List A} {s : S} (fixed : ∀ item ∈ items, step s item = s) :
    items.foldl step s = s := by
  induction items with
  | nil => rfl
  | cons item rest ih =>
    rw [List.foldl_cons, fixed item List.mem_cons_self]
    exact ih fun other member => fixed other (List.mem_cons_of_mem item member)

/-- What a step brings about and no step undoes holds for each of them at the end. -/
theorem foldl_establishes {step : S → A → S} {P : A → S → Prop} (now : ∀ s item, P item (step s item))
    (kept : ∀ s item other, P other s → P other (step s item)) (items : List A) (start : S) :
    ∀ item ∈ items, P item (items.foldl step start) := by
  have stays (item : A) (rest : List A) (s : S) (held : P item s) : P item (rest.foldl step s) := by
    induction rest generalizing s with
    | nil => exact held
    | cons other rest ih => exact ih _ (kept s other item held)
  induction items generalizing start with
  | nil => exact fun _ member => absurd member List.not_mem_nil
  | cons first rest ih =>
    intro item member
    rcases List.mem_cons.mp member with rfl | later
    · exact stays item rest _ (now start item)
    · exact ih (step start first) item later

private theorem foldl_or (value : A → Option B) (items : List A) (held : Option B) :
    items.foldl (fun held item => (value item).or held) held =
      (items.foldl (fun held item => (value item).or held) none).or held := by
  induction items generalizing held with
  | nil => rfl
  | cons item rest ih =>
    rw [List.foldl_cons, ih, List.foldl_cons, ih ((value item).or none), Option.or_none, Option.or_assoc]

/-- Overwriting a cell by the same values once more changes nothing. -/
theorem foldl_or_twice (value : A → Option B) (items : List A) (held : Option B) :
    items.foldl (fun held item => (value item).or held) (items.foldl (fun held item => (value item).or held) held) =
      items.foldl (fun held item => (value item).or held) held := by
  rw [foldl_or value items held, foldl_or value items (Option.or _ held), ← Option.or_assoc, Option.or_self]

/-- The last element of a kind, with what is before and after it. -/
theorem exists_last {P : A → Prop} {items : List A} (some : ∃ item ∈ items, P item) :
    ∃ before item after, items = before ++ item :: after ∧ P item ∧ ∀ later ∈ after, ¬P later := by
  induction items with
  | nil =>
    obtain ⟨_, member, _⟩ := some
    cases member
  | cons first rest ih =>
    by_cases later : ∃ item ∈ rest, P item
    · obtain ⟨before, item, after, rfl, holds, last⟩ := ih later
      exact ⟨first :: before, item, after, rfl, holds, last⟩
    · obtain ⟨item, member, holds⟩ := some
      rcases List.mem_cons.mp member with rfl | inRest
      · exact ⟨[], item, rest, rfl, holds, fun other there also => later ⟨other, there, also⟩⟩
      · exact absurd ⟨item, inRest, holds⟩ later

variable {step : S → A → Option S}

/-- What every step of a run that may fail keeps holds at its end. -/
theorem foldlM_keeps {P : S → Prop} {items : List A} {start final : S}
    (kept : ∀ s item next, item ∈ items → P s → step s item = some next → P next)
    (runs : items.foldlM step start = some final) (initial : P start) : P final := by
  induction items generalizing start with
  | nil =>
    cases runs
    exact initial
  | cons item rest ih =>
    rw [List.foldlM_cons] at runs
    obtain ⟨next, first, later⟩ := Option.bind_eq_some_iff.mp runs
    refine ih (fun s other next member => kept s other next (List.mem_cons_of_mem item member)) later ?_
    exact kept start item next List.mem_cons_self initial first

/-- A run over entries that can always be taken gets through, and keeps what each of
them keeps. -/
theorem foldlM_gets_through {P : S → Prop} {entry : B → A}
    (each : ∀ s item, P s → ∃ next, step s (entry item) = some next ∧ P next) (items : List B) {start : S}
    (initial : P start) : ∃ final, (items.map entry).foldlM step start = some final ∧ P final := by
  induction items generalizing start with
  | nil => exact ⟨start, rfl, initial⟩
  | cons item rest ih =>
    obtain ⟨next, stepped, kept⟩ := each start item initial
    obtain ⟨final, run, holds⟩ := ih kept
    refine ⟨final, ?_, holds⟩
    rw [List.map_cons, List.foldlM_cons, stepped]
    exact run

/-- A run whose steps agree on its items. -/
theorem foldlM_congr_mem {other : S → A → Option S} {items : List A}
    (same : ∀ s, ∀ item ∈ items, step s item = other s item) (start : S) :
    items.foldlM step start = items.foldlM other start := by
  induction items generalizing start with
  | nil => rfl
  | cons item rest ih =>
    rw [List.foldlM_cons, List.foldlM_cons, same start item List.mem_cons_self]
    cases other start item with
    | none => rfl
    | some next => exact ih (fun s later member => same s later (List.mem_cons_of_mem _ member)) next

/-- A run gets through exactly if every item can be taken. -/
theorem foldlM_isSome_iff {takes : A → Prop}
    (each : ∀ s item, (step s item).isSome ↔ takes item) (items : List A) (start : S) :
    (items.foldlM step start).isSome ↔ ∀ item ∈ items, takes item := by
  induction items generalizing start with
  | nil => simp
  | cons item rest ih =>
    rw [List.foldlM_cons, List.forall_mem_cons, ← each start item]
    cases step start item with
    | none => simp
    | some next => simpa using ih next

/-- A run that follows another step by step. -/
theorem foldlM_follows {T : Type x} {view : S → T} {other : T → A → Option T}
    (each : ∀ s item, other (view s) item = (step s item).map view) (items : List A) (start : S) :
    items.foldlM other (view start) = (items.foldlM step start).map view := by
  induction items generalizing start with
  | nil => rfl
  | cons item rest ih =>
    rw [List.foldlM_cons, List.foldlM_cons, each]
    cases step start item with
    | none => rfl
    | some next => exact ih next

/-- A run in which each item leaves something behind for good, beside a laxer one. -/
theorem foldlM_leaves {lax : S → A → Option S} {has : S → B → Prop} {shows : A → B → Prop}
    (each : ∀ s item next, step s item = some next →
      lax s item = some next ∧ (∀ b, has s b → has next b) ∧ ∃ b, has next b ∧ shows item b)
    {items : List A} {start final : S} (run : items.foldlM step start = some final) :
    items.foldlM lax start = some final ∧ (∀ b, has start b → has final b) ∧
      ∀ item ∈ items, ∃ b, has final b ∧ shows item b := by
  induction items generalizing start with
  | nil =>
    cases run
    exact ⟨rfl, fun _ held => held, fun _ member => absurd member List.not_mem_nil⟩
  | cons item rest ih =>
    rw [List.foldlM_cons] at run
    obtain ⟨next, first, later⟩ := Option.bind_eq_some_iff.mp run
    obtain ⟨same, kept, b, there, shown⟩ := each start item next first
    obtain ⟨runs, keptRest, left⟩ := ih later
    refine ⟨?_, fun b held => keptRest b (kept b held), ?_⟩
    · rw [List.foldlM_cons, same]
      exact runs
    · intro other member
      rcases List.mem_cons.mp member with rfl | inRest
      · exact ⟨b, keptRest b there, shown⟩
      · exact left other inRest

end Lib.Fold
