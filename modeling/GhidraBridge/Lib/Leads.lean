import Mathlib.Data.List.Basic

/-! Lists whose elements have keys, where the first element of a key leads it. A
change of the element found under a key is a change of each element by itself, once
one knows whether it leads; and so is any run of such changes. -/
namespace Lib.Leads
variable {A : Type u} {K : Type v} [DecidableEq K] (key : A → K)

/-- Each element with whether it leads its key, the keys seen before given. -/
def leads : List K → List A → List (Bool × A)
  | _, [] => []
  | seen, a :: rest => (decide (key a ∉ seen), a) :: leads (key a :: seen) rest

/-- Change every element by itself. -/
def each (change : Bool → A → A) (elements : List A) : List A :=
  (leads key [] elements).map fun entry => change entry.1 entry.2

variable {key}

theorem leads_map (seen : List K) (elements : List A) : (leads key seen elements).map Prod.snd = elements := by
  induction elements generalizing seen with
  | nil => rfl
  | cons a rest ih => rw [leads, List.map_cons, ih]

/-- A change that keeps the keys keeps the leads. -/
theorem leads_of_map {change : Bool → A → A} (kept : ∀ lead a, key (change lead a) = key a) (seen : List K)
    (elements : List A) :
    leads key seen ((leads key seen elements).map fun entry => change entry.1 entry.2) =
      (leads key seen elements).map fun entry => (entry.1, change entry.1 entry.2) := by
  induction elements generalizing seen with
  | nil => rfl
  | cons a rest ih => rw [leads, List.map_cons, leads, List.map_cons, kept, ih]

theorem each_each {first second : Bool → A → A} (kept : ∀ lead a, key (first lead a) = key a) (elements : List A) :
    each key second (each key first elements) = each key (fun lead a => second lead (first lead a)) elements := by
  rw [each, each, leads_of_map kept, List.map_map]
  rfl

theorem map_key_each {change : Bool → A → A} (kept : ∀ lead a, key (change lead a) = key a) (elements : List A) :
    (each key change elements).map key = elements.map key := by
  have walked := congrArg (List.map key) (@leads_map A K _ key [] elements)
  rw [List.map_map] at walked
  rw [each, List.map_map, ← walked]
  exact List.map_congr_left fun entry _ => kept entry.1 entry.2

theorem each_self (elements : List A) : each key (fun _ a => a) elements = elements := leads_map [] elements

/-- Changing every element with no regard for the leads. -/
theorem each_map (change : A → A) (elements : List A) :
    each key (fun _ a => change a) elements = elements.map change := by
  have walked := congrArg (List.map change) (@leads_map A K _ key [] elements)
  rw [List.map_map] at walked
  exact walked

/-- A second change does nothing exactly when it does nothing to any element. -/
theorem each_each_eq_iff {first second : Bool → A → A} (kept : ∀ lead a, key (first lead a) = key a)
    (elements : List A) :
    each key second (each key first elements) = each key first elements ↔
      ∀ entry ∈ leads key [] elements, second entry.1 (first entry.1 entry.2) = first entry.1 entry.2 := by
  rw [each_each kept]
  exact List.map_inj_left

/-- The leading elements are those found under their keys. -/
theorem mem_leads {elements : List A} {a : A} (seen : List K) :
    (true, a) ∈ leads key seen elements ↔
      key a ∉ seen ∧ elements.find? (fun other => key other = key a) = some a := by
  induction elements generalizing seen with
  | nil => simp [leads]
  | cons first rest ih =>
    rw [leads, List.mem_cons, ih, List.find?_cons]
    by_cases here : key first = key a
    · have repeated : key a ∈ key first :: seen := List.mem_cons.mpr (.inl here.symm)
      constructor
      · rintro (same | ⟨fresh, -⟩)
        · obtain ⟨lead, rfl⟩ := Prod.mk.inj same
          exact ⟨of_decide_eq_true lead.symm, by simp⟩
        · exact absurd repeated fresh
      · rintro ⟨fresh, found⟩
        simp only [here, decide_true, Option.some.injEq] at found
        subst found
        exact .inl (by simp [fresh])
    · have apart : (true, a) ≠ (decide (key first ∉ seen), first) := fun same =>
        here (congrArg key (Prod.mk.inj same).2.symm)
      have fresh : key a ∉ key first :: seen ↔ key a ∉ seen := by simp [Ne.symm here]
      simp only [apart, false_or, fresh, here, decide_false]

/-- Whether an element leads is decided by those before it. -/
theorem getElem?_leads (seen : List K) (elements : List A) (i : Nat) :
    (leads key seen elements)[i]? =
      elements[i]?.map fun a => (decide (key a ∉ seen ∧ key a ∉ (elements.take i).map key), a) := by
  induction elements generalizing seen i with
  | nil => rfl
  | cons first rest ih =>
    cases i with
    | zero => simp [leads]
    | succ i =>
      rw [leads, List.getElem?_cons_succ, ih, List.getElem?_cons_succ, List.take_succ_cons, List.map_cons]
      congr 1
      funext a
      simp only [List.mem_cons, not_or]
      congr 2
      exact propext ⟨fun ⟨⟨apart, fresh⟩, later⟩ => ⟨fresh, apart, later⟩,
        fun ⟨fresh, apart, later⟩ => ⟨⟨apart, fresh⟩, later⟩⟩

/-- An element with a key of its own leads, and leaves the others as they are. -/
theorem leads_append_fresh {elements : List A} {a : A} (seen : List K) (unseen : key a ∉ seen)
    (fresh : ∀ other ∈ elements, key other ≠ key a) :
    leads key seen (elements ++ [a]) = leads key seen elements ++ [(true, a)] := by
  induction elements generalizing seen with
  | nil => simp [leads, unseen]
  | cons first rest ih =>
    have later : key a ∉ key first :: seen := by
      simp [unseen, (fresh first List.mem_cons_self).symm]
    rw [List.cons_append, leads, leads, ih _ later fun other member => fresh other (List.mem_cons_of_mem _ member)]
    rfl

/-- A run of changes changes every element by its own run. -/
theorem foldl_each {S : Type w} {R : Type x} {step : S → R → S} {read : S → List A} {Inv : S → Prop}
    {change : R → Bool → A → A} (kept : ∀ r lead a, key (change r lead a) = key a)
    (one : ∀ s r, Inv s → read (step s r) = each key (change r) (read s) ∧ Inv (step s r)) (rs : List R) {s : S}
    (inv : Inv s) :
    read (rs.foldl step s) = each key (fun lead a => rs.foldl (fun a r => change r lead a) a) (read s) := by
  induction rs generalizing s with
  | nil => exact (each_self (read s)).symm
  | cons r rest ih =>
    obtain ⟨stepped, inv⟩ := one s r inv
    rw [List.foldl_cons, ih inv, stepped, each_each (kept r)]
    rfl

end Lib.Leads
