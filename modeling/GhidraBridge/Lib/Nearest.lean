import Mathlib.Order.Lattice

/-! The largest value within a limit, searched in one walk that starts from a floor
and moves only to a strictly larger value: the walk ends at the first row that has
the largest one. -/
namespace Lib.Nearest
variable {A : Type u} {V : Type v} [LinearOrder V] {value : A → V} {limit floor : V}

/-- The row a walk holds after one more row. -/
def closer (value : A → V) (limit : V) (best row : A) : A :=
  if value row ≤ limit ∧ value best < value row then row else best

/-- The first row with the largest value above the floor and within the limit. -/
structure FirstLargest (value : A → V) (floor limit : V) (rows : List A) (row : A) : Prop where
  above : floor < value row
  within : value row ≤ limit
  first : ∃ before after, rows = before ++ row :: after ∧
    (∀ other ∈ before, value other ≤ limit → value other < value row) ∧
    ∀ other ∈ after, value other ≤ limit → value other ≤ value row

theorem FirstLargest.mem {rows : List A} {row : A} (nearest : FirstLargest value floor limit rows row) :
    row ∈ rows := by
  obtain ⟨before, after, rfl, -⟩ := nearest.first
  simp

/-- No row within the limit has a larger value. -/
theorem FirstLargest.le {rows : List A} {row other : A} (nearest : FirstLargest value floor limit rows row)
    (member : other ∈ rows) (within : value other ≤ limit) : value other ≤ value row := by
  obtain ⟨before, after, rfl, earlier, later⟩ := nearest.first
  rcases List.mem_append.mp member with front | tail
  · exact le_of_lt (earlier other front within)
  · rcases List.mem_cons.mp tail with rfl | back
    · exact le_refl _
    · exact later other back within

/-- A walk past rows that are no larger stays where it is. -/
theorem foldl_closer_kept {rows : List A} {best : A}
    (smaller : ∀ row ∈ rows, value row ≤ limit → value row ≤ value best) :
    rows.foldl (closer value limit) best = best := by
  induction rows with
  | nil => rfl
  | cons row rest ih =>
    have here : ¬(value row ≤ limit ∧ value best < value row) := fun larger =>
      absurd larger.2 (not_lt.mpr (smaller row List.mem_cons_self larger.1))
    rw [List.foldl_cons, closer, if_neg here]
    exact ih fun other member => smaller other (List.mem_cons_of_mem row member)

/-- A walk past rows below a value stays below it. -/
theorem foldl_closer_below {rows : List A} {best : A} {top : V} (start : value best < top)
    (smaller : ∀ row ∈ rows, value row ≤ limit → value row < top) :
    value (rows.foldl (closer value limit) best) < top := by
  induction rows generalizing best with
  | nil => exact start
  | cons row rest ih =>
    have next : value (closer value limit best row) < top := by
      unfold closer
      split
      · rename_i larger
        exact smaller row List.mem_cons_self larger.1
      · exact start
    rw [List.foldl_cons]
    exact ih next fun other member => smaller other (List.mem_cons_of_mem row member)

/-- The walk ends at the nearest row. -/
theorem foldl_closer_eq {rows : List A} {best row : A} (nearest : FirstLargest value (value best) limit rows row) :
    rows.foldl (closer value limit) best = row := by
  obtain ⟨before, after, rfl, earlier, later⟩ := nearest.first
  have reached := foldl_closer_below nearest.above earlier
  rw [List.foldl_append, List.foldl_cons, closer, if_pos ⟨nearest.within, reached⟩]
  exact foldl_closer_kept later

/-- Either nothing stands between the floor and the limit, or there is a nearest row. -/
theorem nearest_or_none (value : A → V) (floor limit : V) (rows : List A) :
    (∀ row ∈ rows, value row ≤ limit → value row ≤ floor) ∨ ∃ row, FirstLargest value floor limit rows row := by
  induction rows generalizing floor with
  | nil => simp
  | cons row rest ih =>
    by_cases larger : value row ≤ limit ∧ floor < value row
    · rcases ih (value row) with smaller | ⟨found, nearest⟩
      · exact .inr ⟨row, larger.2, larger.1, [], rest, rfl, by simp, smaller⟩
      · obtain ⟨before, after, shape, earlier, later⟩ := nearest.first
        refine .inr ⟨found, lt_trans larger.2 nearest.above, nearest.within, row :: before, after, by simp [shape],
          ?_, later⟩
        exact List.forall_mem_cons.mpr ⟨fun _ => nearest.above, earlier⟩
    · have low : value row ≤ limit → value row ≤ floor := fun within => not_lt.mp fun above => larger ⟨within, above⟩
      rcases ih floor with smaller | ⟨found, nearest⟩
      · exact .inl (List.forall_mem_cons.mpr ⟨low, smaller⟩)
      · obtain ⟨before, after, shape, earlier, later⟩ := nearest.first
        refine .inr ⟨found, nearest.above, nearest.within, row :: before, after, by simp [shape], ?_, later⟩
        exact List.forall_mem_cons.mpr ⟨fun within => lt_of_le_of_lt (low within) nearest.above, earlier⟩

end Lib.Nearest
