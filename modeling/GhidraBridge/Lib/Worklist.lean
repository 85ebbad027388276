import Mathlib.Logic.Relation
import Mathlib.Data.List.Nodup

/-! A worklist that is taken from its end, where each value taken adds what is below it.
Over values of which only finitely many are below one, the walk ends and takes each value
once for each way it is below one of those it starts from; where there is one such way,
once. -/
namespace Lib.Worklist
open Relation
variable {A : Type u} (below : A → List A)

/-- One value is right below another. -/
def Below (a b : A) : Prop := b ∈ below a

/-- The values in the order they are taken, the next one first, nothing where the fuel is
used up. -/
def walk : Nat → List A → Option (List A)
  | _, [] => some []
  | 0, _ :: _ => none
  | fuel + 1, a :: rest => (walk fuel ((below a).reverse ++ rest)).map (a :: ·)

/-- Only finitely many values are below one. -/
def Finite (a : A) : Prop := Acc (fun b a => Below below a b) a

variable {below}

theorem walk_more {fuel : Nat} {stack order : List A} (ends : walk below fuel stack = some order) (more : Nat) :
    walk below (fuel + more) stack = some order := by
  induction fuel generalizing stack order with
  | zero =>
    cases stack with
    | nil => cases more <;> exact ends
    | cons a rest => cases ends
  | succ fuel ih =>
    cases stack with
    | nil => rw [Nat.succ_add]; exact ends
    | cons a rest =>
      obtain ⟨later, walked, rfl⟩ := Option.map_eq_some_iff.mp ends
      rw [Nat.succ_add, walk, ih walked]
      rfl

/-- What is below one value is taken before what stands under it in the stack. -/
theorem walk_append {first second front back : List A} {fuel more : Nat} (one : walk below fuel first = some front)
    (two : walk below more second = some back) : walk below (fuel + more) (first ++ second) = some (front ++ back) := by
  induction fuel generalizing first front with
  | zero =>
    cases first with
    | nil =>
      cases one
      rwa [Nat.zero_add]
    | cons a rest => cases one
  | succ fuel ih =>
    cases first with
    | nil =>
      cases one
      rw [Nat.add_comm]
      exact walk_more two _
    | cons a rest =>
      obtain ⟨later, walked, rfl⟩ := Option.map_eq_some_iff.mp one
      rw [Nat.succ_add, List.cons_append, walk, ← List.append_assoc, ih walked]
      rfl

theorem walk_ends_all {stack : List A} (each : ∀ a ∈ stack, ∃ fuel order, walk below fuel [a] = some order) :
    ∃ fuel order, walk below fuel stack = some order := by
  induction stack with
  | nil => exact ⟨0, [], rfl⟩
  | cons a rest ih =>
    obtain ⟨fuel, front, one⟩ := each a List.mem_cons_self
    obtain ⟨more, back, two⟩ := ih fun b later => each b (List.mem_cons_of_mem _ later)
    exact ⟨_, _, walk_append one two⟩

/-- The walk from a value with finitely many below it ends. -/
theorem walk_ends {a : A} (finite : Finite below a) : ∃ fuel order, walk below fuel [a] = some order := by
  induction finite with
  | intro a _ ih =>
    obtain ⟨fuel, order, walked⟩ := walk_ends_all fun b member => ih b (List.mem_reverse.mp member)
    refine ⟨fuel + 1, a :: order, ?_⟩
    rw [walk, List.append_nil, walked]
    rfl

/-- The walk takes what is below the values it starts from, however far. -/
theorem mem_walk {fuel : Nat} {stack order : List A} (ends : walk below fuel stack = some order) {b : A} :
    b ∈ order ↔ ∃ a ∈ stack, ReflTransGen (Below below) a b := by
  induction fuel generalizing stack order with
  | zero =>
    cases stack with
    | nil =>
      cases ends
      simp
    | cons a rest => cases ends
  | succ fuel ih =>
    cases stack with
    | nil =>
      cases ends
      simp
    | cons a rest =>
      obtain ⟨later, walked, rfl⟩ := Option.map_eq_some_iff.mp ends
      rw [List.mem_cons, ih walked]
      constructor
      · rintro (rfl | ⟨c, member, reaches⟩)
        · exact ⟨b, List.mem_cons_self, .refl⟩
        · rcases List.mem_append.mp member with child | other
          · exact ⟨a, List.mem_cons_self, .head (List.mem_reverse.mp child) reaches⟩
          · exact ⟨c, List.mem_cons_of_mem _ other, reaches⟩
      · rintro ⟨c, member, reaches⟩
        rcases List.mem_cons.mp member with rfl | other
        · rcases reaches.cases_head with rfl | ⟨child, right, reaches⟩
          · exact .inl rfl
          · exact .inr ⟨child, List.mem_append_left _ (List.mem_reverse.mpr right), reaches⟩
        · exact .inr ⟨c, List.mem_append_right _ other, reaches⟩

/-- Each value is right below at most one, and there once. -/
structure Treelike (below : A → List A) : Prop where
  parent : ∀ a a' b, Below below a b → Below below a' b → a = a'
  once : ∀ a, (below a).Nodup

/-- Nothing with finitely many below it is below itself. -/
theorem not_below_self {a b : A} (finite : Finite below a) (child : Below below a b) :
    ¬ReflTransGen (Below below) b a := by
  induction finite generalizing b with
  | intro a _ ih =>
    intro back
    rcases back.cases_head with rfl | ⟨c, right, reaches⟩
    · exact ih b child child .refl
    · exact ih b child right (reaches.tail child)

/-- Two values below one have nothing below them in common. -/
theorem siblings_apart (tree : Treelike below) {a b b' c : A} (finite : Finite below a) (one : Below below a b)
    (two : Below below a b') (other : b ≠ b') (first : ReflTransGen (Below below) b c) :
    ¬ReflTransGen (Below below) b' c := by
  intro second
  have above : ∀ x y, Below below a x → Below below a y → x ≠ y → ¬ReflTransGen (Below below) x y := by
    intro x y xs ys apart reaches
    rcases reaches.cases_tail with rfl | ⟨z, up, right⟩
    · exact apart rfl
    · cases tree.parent z a y right ys
      exact not_below_self finite xs up
  have unique : Relator.RightUnique (Function.swap (Below below)) :=
    fun x y z left right => tree.parent y z x left right
  rcases ReflTransGen.total_of_right_unique unique (reflTransGen_swap.mpr first) (reflTransGen_swap.mpr second) with
    up | up
  · exact above b' b two one other.symm (reflTransGen_swap.mp up)
  · exact above b b' one two other (reflTransGen_swap.mp up)

/-- Values that have nothing below them in common. -/
def Apart (below : A → List A) (a b : A) : Prop :=
  ∀ c, ReflTransGen (Below below) a c → ¬ReflTransGen (Below below) b c

theorem nodup_walk (tree : Treelike below) {fuel : Nat} {stack order : List A}
    (ends : walk below fuel stack = some order) (finite : ∀ a ∈ stack, Finite below a)
    (apart : stack.Pairwise (Apart below)) : order.Nodup := by
  induction fuel generalizing stack order with
  | zero =>
    cases stack with
    | nil =>
      cases ends
      exact List.nodup_nil
    | cons a rest => cases ends
  | succ fuel ih =>
    cases stack with
    | nil =>
      cases ends
      exact List.nodup_nil
    | cons a rest =>
      obtain ⟨later, walked, rfl⟩ := Option.map_eq_some_iff.mp ends
      obtain ⟨alone, others⟩ := List.pairwise_cons.mp apart
      have own := finite a List.mem_cons_self
      refine List.nodup_cons.mpr ⟨fun again => ?_, ih walked (fun b member => ?_) ?_⟩
      · obtain ⟨b, member, reaches⟩ := (mem_walk walked).mp again
        rcases List.mem_append.mp member with child | other
        · exact not_below_self own (List.mem_reverse.mp child) reaches
        · exact alone b other a .refl reaches
      · rcases List.mem_append.mp member with child | other
        · exact own.inv (List.mem_reverse.mp child)
        · exact finite b (List.mem_cons_of_mem _ other)
      · refine List.pairwise_append.mpr ⟨?_, others, fun b child c other d first => ?_⟩
        · refine List.pairwise_reverse.mpr ((tree.once a).pairwise_of_forall_ne ?_)
          intro b one b' two other c first
          exact siblings_apart tree own two one other.symm first
        · exact alone c other d (.head (List.mem_reverse.mp child) first)

end Lib.Worklist
