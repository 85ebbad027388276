/-! A cell that is written until it holds a settled value: a write goes through
while the cell is empty or what it holds is not settled, and is dropped after
that. -/
namespace Lib.Settle
variable {V : Type u} (settled : V → Bool)

def write (held : Option V) (value : V) : Option V :=
  match held with
  | none => some value
  | some old => if settled old then some old else some value

variable {settled}

theorem foldl_write_of_settled {value : V} (final : settled value = true) (values : List V) :
    values.foldl (write settled) (some value) = some value := by
  induction values with
  | nil => rfl
  | cons next rest ih => rw [List.foldl_cons, write, if_pos final, ih]

private theorem getLast?_cons_or (value : V) (rest : List V) :
    (value :: rest).getLast? = rest.getLast?.or (some value) := by
  rw [List.getLast?_cons]
  cases rest.getLast? <;> rfl

/-- The first settled value stays; where none is settled, the last one written does. -/
theorem foldl_write (held : Option V) (values : List V) :
    values.foldl (write settled) held =
      ((held.toList ++ values).find? settled).or (values.getLast?.or held) := by
  induction values generalizing held with
  | nil =>
    cases held with
    | none => rfl
    | some old => by_cases final : settled old = true <;> simp [final]
  | cons value rest ih =>
    have written : rest.foldl (write settled) (some value) =
        ((value :: rest).find? settled).or (value :: rest).getLast? := by
      rw [ih, getLast?_cons_or]
      rfl
    rw [List.foldl_cons]
    cases held with
    | none =>
      rw [Option.or_none]
      exact written
    | some old =>
      by_cases final : settled old = true
      · rw [write, if_pos final, foldl_write_of_settled final]
        simp [final]
      · have last : (value :: rest).getLast?.or (some old) = (value :: rest).getLast? := by
          rw [getLast?_cons_or, Option.or_assoc]
          rfl
        rw [write, if_neg final, written, last, Option.toList_some, List.singleton_append,
          List.find?_cons_of_neg final]

/-! A cell with a label and a value. A write goes through while its own test takes the
label for a passing one; it leaves its label, and its value if it has one. -/
section
variable {N : Type u} {T : Type v} {W : Type w} (passing : W → N → Bool) (label : W → N)

/-- The writes that go through, from a cell with this label. -/
def through : N → List W → List W
  | _, [] => []
  | held, write :: rest =>
    if passing write held then write :: through (label write) rest else through held rest

theorem through_eq_nil {passing : W → N → Bool} {label : W → N} {held : N} {writes : List W}
    (dropped : ∀ write ∈ writes, passing write held = false) : through passing label held writes = [] := by
  induction writes with
  | nil => rfl
  | cons write rest ih =>
    have here : ¬passing write held = true := by simp [dropped write List.mem_cons_self]
    rw [through, if_neg here]
    exact ih fun other member => dropped other (List.mem_cons_of_mem write member)

def relabel (value : W → Option T) (held : N × Option T) (write : W) : N × Option T :=
  if passing write held.1 then (label write, (value write).or held.2) else held

theorem foldl_relabel (value : W → Option T) (writes : List W) (held : N × Option T) :
    writes.foldl (relabel passing label value) held =
      (((through passing label held.1 writes).getLast?.map label).getD held.1,
        ((through passing label held.1 writes).filterMap value).getLast?.or held.2) := by
  induction writes generalizing held with
  | nil => rfl
  | cons write rest ih =>
    rw [List.foldl_cons, ih, relabel, through]
    by_cases goes : passing write held.1 = true
    · have labels : ((through passing label (label write) rest).getLast?.map label).getD (label write) =
          ((write :: through passing label (label write) rest).getLast?.map label).getD held.1 := by
        rw [getLast?_cons_or]
        cases (through passing label (label write) rest).getLast? <;> rfl
      have values : ((through passing label (label write) rest).filterMap value).getLast?.or
            ((value write).or held.2) =
          ((write :: through passing label (label write) rest).filterMap value).getLast?.or held.2 := by
        rw [List.filterMap_cons]
        cases value write with
        | none => rfl
        | some given => rw [getLast?_cons_or, Option.or_assoc]
      rw [if_pos goes, if_pos goes, labels, values]
    · rw [if_neg goes, if_neg goes]

/-- Writes leave a cell as it is exactly when the last label and the last value that go
through are those it holds. -/
theorem foldl_relabel_eq_iff (value : W → Option T) (writes : List W) (held : N × Option T) :
    writes.foldl (relabel passing label value) held = held ↔
      (∀ write ∈ (through passing label held.1 writes).getLast?, label write = held.1) ∧
        ∀ given ∈ ((through passing label held.1 writes).filterMap value).getLast?, held.2 = some given := by
  obtain ⟨name, type⟩ := held
  rw [foldl_relabel, Prod.mk.injEq]
  refine and_congr ?_ ?_
  · cases (through passing label name writes).getLast? with
    | none => simp
    | some write => simp
  · cases ((through passing label name writes).filterMap value).getLast? with
    | none => simp
    | some given => simp [eq_comm]

end

end Lib.Settle
