/-! Runs of a system that takes labelled steps, where a run may be held to a
condition on the state and the label of each of its steps. -/
namespace Lib.Runs
variable {S : Type u} {L : Type v}

/-- The states of the runs from `start` whose every step meets the guard. -/
inductive Reaches (step : S → L → S → Prop) (guard : S → L → Prop) (start : S) : S → Prop
  | start : Reaches step guard start start
  | step {s next : S} {label : L} (before : Reaches step guard start s) (allowed : guard s label)
      (taken : step s label next) : Reaches step guard start next

variable {step : S → L → S → Prop} {guard : S → L → Prop} {start : S}

/-- What holds at the start and is kept by every guarded step holds along every guarded run. -/
theorem Reaches.invariant {inv : S → Prop} (initial : inv start)
    (kept : ∀ s label next, inv s → guard s label → step s label next → inv next) {s : S}
    (reached : Reaches step guard start s) : inv s := by
  induction reached with
  | start => exact initial
  | step _ allowed taken ih => exact kept _ _ _ ih allowed taken

/-- A step function that takes a whole list of labels goes on with the run. -/
theorem Reaches.foldlM {f : S → L → Option S} {labels : List L} {s next : S}
    (before : Reaches (fun s label next => f s label = some next) guard start s)
    (allowed : ∀ s, ∀ label ∈ labels, guard s label) (ran : labels.foldlM f s = some next) :
    Reaches (fun s label next => f s label = some next) guard start next := by
  induction labels generalizing s with
  | nil =>
    cases ran
    exact before
  | cons label rest ih =>
    rw [List.foldlM_cons] at ran
    obtain ⟨after, taken, ran⟩ := Option.bind_eq_some_iff.mp ran
    refine ih (.step before (allowed s label List.mem_cons_self) taken) (fun s other there => ?_) ran
    exact allowed s other (List.mem_cons_of_mem _ there)

/-- The same where the guard is checked before each step. -/
theorem Reaches.foldlM_guarded {f : S → L → Option S} [∀ s label, Decidable (guard s label)] {labels : List L}
    {s next : S} (before : Reaches (fun s label next => f s label = some next) guard start s)
    (ran : labels.foldlM (fun s label => if guard s label then f s label else none) s = some next) :
    Reaches (fun s label next => f s label = some next) guard start next := by
  induction labels generalizing s with
  | nil =>
    cases ran
    exact before
  | cons label rest ih =>
    rw [List.foldlM_cons] at ran
    obtain ⟨after, taken, ran⟩ := Option.bind_eq_some_iff.mp ran
    split at taken
    · rename_i allowed
      exact ih (.step before allowed taken) ran
    · cases taken

/-! ## Lists of steps that are all taken -/

section
variable {T : Type w} {f : S → L → S}

/-- Every step over the list meets the guard in the state it is taken in. -/
def Guarded (f : S → L → S) (guard : S → L → Prop) : S → List L → Prop
  | _, [] => True
  | s, label :: rest => guard s label ∧ Guarded f guard (f s label) rest

instance decidableGuarded [∀ s label, Decidable (guard s label)] :
    ∀ (s : S) (labels : List L), Decidable (Guarded f guard s labels)
  | _, [] => inferInstanceAs (Decidable True)
  | s, label :: rest =>
    have := decidableGuarded (f s label) rest
    inferInstanceAs (Decidable (_ ∧ _))

/-- The list is a run. -/
theorem Reaches.foldl {labels : List L} {s : S} (before : Reaches (fun s label next => next = f s label) guard start s)
    (guarded : Guarded f guard s labels) :
    Reaches (fun s label next => next = f s label) guard start (labels.foldl f s) := by
  induction labels generalizing s with
  | nil => exact before
  | cons label rest ih => exact ih (.step before guarded.1 rfl) guarded.2

theorem guarded_append {labels more : List L} {s : S} :
    Guarded f guard s (labels ++ more) ↔ Guarded f guard s labels ∧ Guarded f guard (labels.foldl f s) more := by
  induction labels generalizing s with
  | nil => simp [Guarded]
  | cons label rest ih => simp only [List.cons_append, Guarded, ih, List.foldl_cons, and_assoc]

/-- A guarded list of steps, step by step. -/
theorem guarded_iff {labels : List L} {s : S} :
    Guarded f guard s labels ↔
      ∀ before label after, labels = before ++ label :: after → guard (before.foldl f s) label := by
  induction labels generalizing s with
  | nil => simp [Guarded]
  | cons first rest ih =>
    rw [Guarded, ih]
    constructor
    · rintro ⟨here, later⟩ before label after shape
      cases before with
      | nil =>
        obtain ⟨rfl, -⟩ := List.cons.inj shape
        exact here
      | cons head tail =>
        rw [List.cons_append] at shape
        obtain ⟨rfl, rfl⟩ := List.cons.inj shape
        exact later tail label after rfl
    · intro each
      refine ⟨each [] first rest rfl, fun before label after shape => ?_⟩
      exact each (first :: before) label after (congrArg (first :: ·) shape)

/-- Two systems whose states stay related while the guards are met meet them together. -/
theorem guarded_iff_of_related {g : T → L → T} {other : T → L → Prop} {related : S → T → Prop}
    (same : ∀ s t label, related s t → (guard s label ↔ other t label))
    (kept : ∀ s t label, related s t → guard s label → related (f s label) (g t label))
    {labels : List L} {s : S} {t : T} (begun : related s t) :
    Guarded f guard s labels ↔ Guarded g other t labels := by
  induction labels generalizing s t with
  | nil => exact Iff.rfl
  | cons label rest ih =>
    have here := same s t label begun
    constructor
    · rintro ⟨met, later⟩
      exact ⟨here.mp met, (ih (kept s t label begun met)).mp later⟩
    · rintro ⟨met, later⟩
      exact ⟨here.mpr met, (ih (kept s t label begun (here.mpr met))).mpr later⟩

end

end Lib.Runs
