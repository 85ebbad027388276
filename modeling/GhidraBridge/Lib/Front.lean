/-! A list in which the element of a key was last used stands before the ones used
earlier: using an element takes those of its key out and puts it in front. -/
namespace Lib.Front
variable {A : Type u} {K : Type v} [DecidableEq K] (key : A → K)

def bring (held : List A) (next : A) : List A := next :: held.filter fun old => key old ≠ key next

variable {key}

/-- What is in the back only loses the keys that are used. -/
theorem foldl_bring_append (used front back : List A) :
    used.foldl (bring key) (front ++ back) =
      used.foldl (bring key) front ++ back.filter fun old => used.all fun next => key old ≠ key next := by
  induction used generalizing front back with
  | nil => exact congrArg (front ++ ·) (List.filter_eq_self.mpr fun _ _ => rfl).symm
  | cons next rest ih =>
    have first : bring key (front ++ back) next =
        bring key front next ++ back.filter fun old => key old ≠ key next := by
      simp [bring]
    rw [List.foldl_cons, List.foldl_cons, first, ih, List.filter_filter]
    simp only [List.all_cons, Bool.and_comm]

theorem mem_foldl_bring {used held : List A} {a : A} (member : a ∈ used.foldl (bring key) held) :
    a ∈ used ∨ a ∈ held := by
  induction used generalizing held with
  | nil => exact .inr member
  | cons next rest ih =>
    rcases ih member with later | now
    · exact .inl (List.mem_cons_of_mem _ later)
    · rcases List.mem_cons.mp now with rfl | old
      · exact .inl List.mem_cons_self
      · exact .inr (List.mem_filter.mp old).1

/-- Using the same elements once more changes nothing. -/
theorem foldl_bring_twice (used held : List A) :
    used.foldl (bring key) (used.foldl (bring key) held) = used.foldl (bring key) held := by
  have once : used.foldl (bring key) held =
      used.foldl (bring key) [] ++ held.filter fun old => used.all fun next => key old ≠ key next :=
    foldl_bring_append used [] held
  have again : used.foldl (bring key) (used.foldl (bring key) held) =
      used.foldl (bring key) [] ++
        (used.foldl (bring key) held).filter fun old => used.all fun next => key old ≠ key next :=
    foldl_bring_append used [] _
  have gone : (used.foldl (bring key) []).filter (fun old => used.all fun next => key old ≠ key next) = [] := by
    refine List.filter_eq_nil_iff.mpr fun old member unused => ?_
    rcases mem_foldl_bring member with there | nowhere
    · have apart := List.all_eq_true.mp unused old there
      simp at apart
    · cases nowhere
  rw [again, once, List.filter_append, gone, List.nil_append, List.filter_filter]
  simp only [Bool.and_self]

theorem head?_foldl_bring (used held : List A) :
    (used.foldl (bring key) held).head? = used.getLast?.or held.head? := by
  induction used generalizing held with
  | nil => rfl
  | cons next rest ih =>
    rw [List.foldl_cons, ih, List.getLast?_cons]
    cases rest.getLast? <;> rfl

/-! An element in front may be settled: it then only gives way to one of its name. -/

section
variable {N : Type w} [DecidableEq N] (key) (name : A → N) (settled : N → Bool)

def take (held : List A) (next : A) : List A :=
  if held.head?.all fun first => !settled (name first) || name first = name next then bring key held next else held

variable {key name settled}

theorem foldl_take_of_settled {held : List A} {first : A} (front : held.head? = some first)
    (final : settled (name first) = true) (used : List A) :
    used.foldl (take key name settled) held =
      (used.filter fun next => name next = name first).foldl (bring key) held := by
  induction used generalizing held first with
  | nil => rfl
  | cons next rest ih =>
    rw [List.foldl_cons, List.filter_cons, take, front]
    by_cases same : name next = name first
    · have again := ih (rfl : (bring key held next).head? = some next) (same ▸ final)
      rw [if_pos (decide_eq_true same), List.foldl_cons, if_pos (by simp [same]), again, same]
    · rw [if_neg (by simp [final, Ne.symm same]), if_neg (by simpa using same), ih front final]

theorem foldl_take_of_unsettled {held used : List A}
    (front : ∀ first, held.head? = some first → settled (name first) = false)
    (loose : ∀ next ∈ used, settled (name next) = false) :
    used.foldl (take key name settled) held = used.foldl (bring key) held := by
  induction used generalizing held with
  | nil => rfl
  | cons next rest ih =>
    have taken : take key name settled held next = bring key held next := by
      refine if_pos ?_
      cases held with
      | nil => rfl
      | cons first _ => simp [front first rfl]
    rw [List.foldl_cons, taken, List.foldl_cons]
    refine ih (fun first now => ?_) fun other member => loose other (List.mem_cons_of_mem next member)
    cases now
    exact loose next List.mem_cons_self

/-- The front after a run of uses all of one name, or of none. -/
theorem head?_foldl_filter {held : List A} {first : A} (front : held.head? = some first) (used : List A) :
    ∃ now, ((used.filter fun next => name next = name first).foldl (bring key) held).head? = some now ∧
      name now = name first := by
  rw [head?_foldl_bring]
  cases last : (used.filter fun next => name next = name first).getLast? with
  | none => exact ⟨first, front, rfl⟩
  | some now =>
    have member := List.mem_of_getLast? last
    exact ⟨now, rfl, by simpa using (List.mem_filter.mp member).2⟩

/-- Once the front is settled, the run comes to uses of its name alone. -/
theorem foldl_take_settles {used held : List A} {first : A}
    (loose : ∀ first, held.head? = some first → settled (name first) = false)
    (found : used.find? (fun next => settled (name next)) = some first) :
    ∃ base, used.foldl (take key name settled) held =
        (used.filter fun next => name next = name first).foldl (bring key) base ∧
      ∃ now, (used.foldl (take key name settled) held).head? = some now ∧ name now = name first := by
  obtain ⟨final, before, after, split, early⟩ := List.find?_eq_some_iff_append.mp found
  have early (next : A) (member : next ∈ before) : settled (name next) = false := by simpa using early next member
  have others : (before.filter fun next => name next = name first) = [] := by
    refine List.filter_eq_nil_iff.mpr fun next member same => ?_
    have same : name next = name first := by simpa using same
    rw [← same, early next member] at final
    cases final
  have first_taken : take key name settled (before.foldl (bring key) held) first =
      bring key (before.foldl (bring key) held) first := by
    refine if_pos ?_
    rw [head?_foldl_bring]
    cases last : before.getLast? with
    | some next => simp [early next (List.mem_of_getLast? last)]
    | none =>
      cases front : held.head? with
      | none => rfl
      | some old => simp [loose old front]
  have run : used.foldl (take key name settled) held =
      (after.filter fun next => name next = name first).foldl (bring key)
        (bring key (before.foldl (bring key) held) first) := by
    rw [split, List.foldl_append, List.foldl_cons, foldl_take_of_unsettled loose early, first_taken]
    exact foldl_take_of_settled rfl final after
  refine ⟨before.foldl (bring key) held, ?_, ?_⟩
  · rw [run, split, List.filter_append, others, List.nil_append, List.filter_cons, if_pos (decide_eq_true rfl),
      List.foldl_cons]
  · rw [run]
    exact head?_foldl_filter rfl after

/-- Whatever is settled, taking the same elements once more changes nothing. -/
theorem foldl_take_twice (used held : List A) :
    used.foldl (take key name settled) (used.foldl (take key name settled) held) =
      used.foldl (take key name settled) held := by
  -- a settled front that only the elements of its name have passed
  have again (base : List A) (first : A) (final : settled (name first) = true)
      (once : used.foldl (take key name settled) held =
        (used.filter fun next => name next = name first).foldl (bring key) base)
      (front : ∃ now, (used.foldl (take key name settled) held).head? = some now ∧ name now = name first) :
      used.foldl (take key name settled) (used.foldl (take key name settled) held) =
        used.foldl (take key name settled) held := by
    obtain ⟨now, front, same⟩ := front
    rw [foldl_take_of_settled front (same ▸ final), same, once, foldl_bring_twice]
  by_cases final : ∃ first, held.head? = some first ∧ settled (name first) = true
  · obtain ⟨first, front, final⟩ := final
    have once := @foldl_take_of_settled A K _ key N _ name settled held first front final used
    refine again held first final once ?_
    rw [once]
    exact head?_foldl_filter front used
  · have loose (first : A) (front : held.head? = some first) : settled (name first) = false :=
      Bool.eq_false_iff.mpr fun settles => final ⟨first, front, settles⟩
    cases found : used.find? (fun next => settled (name next)) with
    | some first =>
      obtain ⟨base, once, front⟩ := @foldl_take_settles A K _ key N _ name settled used held first loose found
      have final : settled (name first) = true := (List.find?_eq_some_iff_append.mp found).1
      exact again base first final once front
    | none =>
      have unsettled (next : A) (member : next ∈ used) : settled (name next) = false := by
        simpa using List.find?_eq_none.mp found next member
      have still (first : A) (front : (used.foldl (bring key) held).head? = some first) :
          settled (name first) = false := by
        rw [head?_foldl_bring] at front
        rcases Option.or_eq_some_iff.mp front with last | ⟨_, first⟩
        · exact unsettled first (List.mem_of_getLast? last)
        · exact loose _ first
      rw [foldl_take_of_unsettled loose unsettled, foldl_take_of_unsettled still unsettled, foldl_bring_twice]

end

end Lib.Front
