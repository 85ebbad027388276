import Mathlib.Logic.Function.Basic
import Mathlib.Data.List.Basic
import Mathlib.Data.List.Nodup
import Mathlib.Tactic.Tauto

/-! Names asked for one at a time. No two keys may hold one name, so a request is refused
while another key holds the name, and whether all of them are granted depends on the order
they come in. -/
namespace Lib.Renames
variable {K : Type u} {N : Type v} [DecidableEq K]

/-- No two keys hold one name. -/
def Distinct (names : K → Option N) : Prop :=
  ∀ key other name, names key = some name → names other = some name → key = other

/-- Another key holds the name. -/
def Taken (names : K → Option N) (key : K) (name : N) : Prop := ∃ other, other ≠ key ∧ names other = some name

/-- A request that is granted. -/
def grant (names : K → Option N) (request : K × N) : K → Option N :=
  Function.update names request.1 (some request.2)

open Classical in
/-- One request, which may be refused. -/
noncomputable def ask (names : K → Option N) (request : K × N) : K → Option N :=
  if Taken names request.1 request.2 then names else grant names request

/-- The names if every request were granted. -/
def wanted (names : K → Option N) (requests : List (K × N)) : K → Option N := requests.foldl grant names

variable {names : K → Option N} {request : K × N} {requests : List (K × N)} {key : K}

theorem ask_of_taken (taken : Taken names request.1 request.2) : ask names request = names := if_pos taken

theorem ask_of_free (free : ¬Taken names request.1 request.2) : ask names request = grant names request :=
  if_neg free

theorem grant_self : grant names request request.1 = some request.2 := Function.update_self ..

theorem grant_of_ne (other : key ≠ request.1) : grant names request key = names key :=
  Function.update_of_ne other ..

theorem grant_of_held (held : names request.1 = some request.2) : grant names request = names := by
  rw [grant, ← held, Function.update_eq_self]

theorem ask_of_held (held : names request.1 = some request.2) : ask names request = names := by
  unfold ask
  split
  · rfl
  · exact grant_of_held held

theorem ask_of_ne (other : key ≠ request.1) : ask names request key = names key := by
  unfold ask
  split
  · rfl
  · exact grant_of_ne other

theorem ask_distinct (distinct : Distinct names) : Distinct (ask names request) := by
  by_cases taken : Taken names request.1 request.2
  · rw [ask_of_taken taken]
    exact distinct
  rw [ask_of_free taken]
  intro first second name holds alsoHolds
  by_cases one : first = request.1 <;> by_cases two : second = request.1
  · rw [one, two]
  · subst one
    rw [grant_self, Option.some.injEq] at holds
    rw [grant_of_ne two, ← holds] at alsoHolds
    exact absurd ⟨second, two, alsoHolds⟩ taken
  · subst two
    rw [grant_self, Option.some.injEq] at alsoHolds
    rw [grant_of_ne one, ← alsoHolds] at holds
    exact absurd ⟨first, one, holds⟩ taken
  · rw [grant_of_ne one] at holds
    rw [grant_of_ne two] at alsoHolds
    exact distinct first second name holds alsoHolds

theorem foldl_ask_of_not_mem (absent : key ∉ requests.map Prod.fst) :
    requests.foldl ask names key = names key := by
  induction requests generalizing names with
  | nil => rfl
  | cons request rest ih =>
    rw [List.map_cons, List.mem_cons, not_or] at absent
    rw [List.foldl_cons, ih absent.2, ask_of_ne absent.1]

theorem wanted_of_not_mem (absent : key ∉ requests.map Prod.fst) : wanted names requests key = names key := by
  induction requests generalizing names with
  | nil => rfl
  | cons request rest ih =>
    rw [List.map_cons, List.mem_cons, not_or] at absent
    rw [wanted, List.foldl_cons, ← wanted, ih absent.2, grant_of_ne absent.1]

/-- A key that asks once is wanted to have the name it asks for. -/
theorem wanted_of_mem (once : (requests.map Prod.fst).Nodup) (member : request ∈ requests) :
    wanted names requests request.1 = some request.2 := by
  induction requests generalizing names with
  | nil => cases member
  | cons first rest ih =>
    rw [List.map_cons, List.nodup_cons] at once
    rw [wanted, List.foldl_cons, ← wanted]
    rcases List.mem_cons.mp member with rfl | later
    · rw [wanted_of_not_mem once.1, grant_self]
    · exact ih once.2 later

/-- A first request is not refused where the names come out distinct and no later one is
from the key that holds its name. -/
theorem not_taken_of_distinct (once : ((request :: requests).map Prod.fst).Nodup)
    (distinct : Distinct (wanted names (request :: requests)))
    (ahead : ∀ later ∈ requests, names later.1 ≠ some request.2) : ¬Taken names request.1 request.2 := by
  rintro ⟨other, apart, holds⟩
  by_cases asks : other ∈ requests.map Prod.fst
  · obtain ⟨later, member, rfl⟩ := List.mem_map.mp asks
    exact ahead later member holds
  · have kept : wanted names (request :: requests) other = some request.2 := by
      rw [wanted_of_not_mem, holds]
      rw [List.map_cons, List.mem_cons]
      tauto
    have given : wanted names (request :: requests) request.1 = some request.2 :=
      wanted_of_mem once List.mem_cons_self
    exact apart (distinct other request.1 request.2 kept given)

/-- All requests are granted exactly when the names come out distinct and none asks for the
name of a key that asks later. -/
theorem all_granted_iff (once : (requests.map Prod.fst).Nodup) (distinct : Distinct names) :
    (∀ request ∈ requests, requests.foldl ask names request.1 = some request.2) ↔
      Distinct (wanted names requests) ∧ requests.Pairwise fun a b => names b.1 ≠ some a.2 := by
  induction requests generalizing names with
  | nil => simpa [wanted] using distinct
  | cons request rest ih =>
    have ⟨absent, onceRest⟩ := List.nodup_cons.mp (List.map_cons ▸ once)
    have apart (later : K × N) (member : later ∈ rest) : later.1 ≠ request.1 := by
      rintro same
      exact absent (same ▸ List.mem_map_of_mem member)
    have earlier : (rest.Pairwise fun a b => grant names request b.1 ≠ some a.2) ↔
        rest.Pairwise fun a b => names b.1 ≠ some a.2 :=
      List.Pairwise.iff_of_mem fun _ second => by rw [grant_of_ne (apart _ second)]
    rw [List.pairwise_cons, wanted, List.foldl_cons, List.foldl_cons, ← wanted]
    constructor
    · intro granted
      -- a refused request would leave two keys with the name
      have free : ¬Taken names request.1 request.2 := by
        intro taken
        have own := granted request List.mem_cons_self
        rw [foldl_ask_of_not_mem absent, ask_of_taken taken] at own
        obtain ⟨other, differs, holds⟩ := taken
        exact differs (distinct other request.1 request.2 holds own)
      rw [ask_of_free free] at granted
      have still : Distinct (grant names request) := ask_of_free free ▸ ask_distinct distinct
      obtain ⟨final, ordered⟩ :=
        (ih onceRest still).mp fun later member => granted later (List.mem_cons_of_mem request member)
      refine ⟨final, fun later member holds => ?_, earlier.mp ordered⟩
      exact free ⟨later.1, apart later member, holds⟩
    · rintro ⟨final, ahead, ordered⟩
      have free : ¬Taken names request.1 request.2 := not_taken_of_distinct once final ahead
      have still : Distinct (grant names request) := ask_of_free free ▸ ask_distinct distinct
      have rest := (ih onceRest still).mpr ⟨final, earlier.mpr ordered⟩
      rw [ask_of_free free]
      intro later member
      rcases List.mem_cons.mp member with rfl | member
      · rw [foldl_ask_of_not_mem absent, grant_self]
      · exact rest later member

end Lib.Renames
