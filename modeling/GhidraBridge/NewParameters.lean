import GhidraBridge.VariableRenames
import Mathlib.Order.Interval.Finset.Nat

/-! New parameters in the parameters array of a check-in. An entry has the position of its
parameter; where the function has none there, the parameter is appended behind the last one,
whatever the position was. -/
namespace GhidraBridge.NewParameters
open Lib Lib.Renames ProgramApplier VariableRenames

/-! ## A list of names and positions in it -/

/-- The names of a function's variables: its parameters by position, then the others. -/
def namesOf (parameters others : List String) : Nat ⊕ Nat → Option String :=
  Sum.elim (fun i => parameters[i]?) fun i => others[i]?

/-- A name for a position. An entry that throws does nothing. -/
structure Entry where
  position : Nat
  name : String
  throws : Bool

/-- The position asked for, or that behind the last parameter. -/
def placeOf (count position : Nat) : Nat := if position < count then position else count

/-- A name at a position that is there, or behind the last one. -/
def putAt (parameters : List String) (i : Nat) (name : String) : List String :=
  if i < parameters.length then parameters.set i name else parameters ++ [name]

section Positions
variable (others : List String)

open Classical in
/-- What an entry makes of the parameters. -/
noncomputable def nameAt (parameters : List String) (entry : Entry) : List String :=
  let i := placeOf parameters.length entry.position
  if entry.throws = true ∨ Taken (namesOf parameters others) (.inl i) entry.name then parameters
  else putAt parameters i entry.name

noncomputable def nameAll (parameters : List String) (entries : List Entry) : List String :=
  entries.foldl (nameAt others) parameters

/-- What the entries ask for. -/
def asks (entries : List Entry) : List ((Nat ⊕ Nat) × String) := entries.map fun e => (.inl e.position, e.name)

/-- Each position is one of the parameters there are by then, or the next one. -/
def Gapless : Nat → List Nat → Prop
  | _, [] => True
  | count, position :: rest =>
    if position < count then Gapless count rest else position = count ∧ Gapless (count + 1) rest

variable {others} {parameters : List String} {entry : Entry} {entries : List Entry}

theorem asks_keys (entries : List Entry) :
    (asks entries).map Prod.fst = (entries.map Entry.position).map .inl := by
  rw [asks, List.map_map, List.map_map]
  rfl

theorem asks_nodup (once : (entries.map Entry.position).Nodup) : ((asks entries).map Prod.fst).Nodup := by
  rw [asks_keys]
  exact once.map Sum.inl_injective

theorem placeOf_of_le {count position : Nat} (here : position ≤ count) : placeOf count position = position := by
  unfold placeOf
  split <;> omega

theorem namesOf_putAt {i : Nat} (here : i ≤ parameters.length) (name : String) :
    namesOf (putAt parameters i name) others = grant (namesOf parameters others) (.inl i, name) := by
  funext key
  rw [grant, Function.update_apply]
  cases key with
  | inr j => rfl
  | inl j =>
    simp only [namesOf, Sum.elim_inl, Sum.inl.injEq, putAt]
    split
    · rename_i inside
      rw [List.getElem?_set]
      by_cases same : i = j
      · subst same
        simp [inside]
      · simp [same, Ne.symm same]
    · rename_i behind
      have last : i = parameters.length := by omega
      subst last
      by_cases same : j = parameters.length
      · simp [same]
      · rw [if_neg same]
        by_cases before : j < parameters.length
        · rw [List.getElem?_append_left before]
        · rw [List.getElem?_append_right (by omega), List.getElem?_eq_none (by simp; omega),
            List.getElem?_eq_none (by omega)]

theorem length_putAt (i : Nat) (name : String) :
    (putAt parameters i name).length = if i < parameters.length then parameters.length else parameters.length + 1 := by
  unfold putAt
  split <;> simp

theorem nameAt_of_throws (throws : entry.throws = true) : nameAt others parameters entry = parameters :=
  if_pos (.inl throws)

theorem nameAt_of_taken {i : Nat} (place : placeOf parameters.length entry.position = i)
    (taken : Taken (namesOf parameters others) (.inl i) entry.name) : nameAt others parameters entry = parameters :=
  if_pos (.inr (place ▸ taken))

theorem nameAt_of_free {i : Nat} (place : placeOf parameters.length entry.position = i) (quiet : entry.throws = false)
    (free : ¬Taken (namesOf parameters others) (.inl i) entry.name) :
    nameAt others parameters entry = putAt parameters i entry.name := by
  subst place
  exact if_neg (by simp [quiet, free])

/-- An entry for a parameter that is there changes no length; another one may append. -/
theorem length_nameAt (entry : Entry) :
    (nameAt others parameters entry).length = parameters.length ∨
      parameters.length ≤ entry.position ∧
        nameAt others parameters entry = putAt parameters parameters.length entry.name ∧
        entry.throws = false ∧ ¬Taken (namesOf parameters others) (.inl parameters.length) entry.name := by
  unfold nameAt
  dsimp only
  split
  · exact .inl rfl
  · rename_i free
    obtain ⟨quiet, free⟩ := not_or.mp free
    by_cases inside : entry.position < parameters.length
    · left
      rw [length_putAt, placeOf, if_pos inside, if_pos inside]
    · right
      rw [placeOf, if_neg inside] at free ⊢
      exact ⟨by omega, rfl, by simpa using quiet, free⟩

theorem length_le_nameAt (entry : Entry) : parameters.length ≤ (nameAt others parameters entry).length := by
  rcases length_nameAt entry with same | ⟨-, made, -⟩
  · exact same.ge
  · rw [made, length_putAt, if_neg (Nat.lt_irrefl _)]
    omega

/-- Only entries for positions beyond the end append. -/
theorem length_nameAll_le (entries : List Entry) (parameters : List String) :
    (nameAll others parameters entries).length ≤
      parameters.length + entries.countP fun e => parameters.length ≤ e.position := by
  induction entries generalizing parameters with
  | nil => simp [nameAll]
  | cons entry rest ih =>
    rw [nameAll, List.foldl_cons, ← nameAll, List.countP_cons]
    have longer := @length_le_nameAt others parameters entry
    have fewer : (rest.countP fun e => (nameAt others parameters entry).length ≤ e.position) ≤
        rest.countP fun e => parameters.length ≤ e.position :=
      List.countP_mono_left fun e _ beyond => by simp only [decide_eq_true_eq] at beyond ⊢; omega
    have rest := ih (nameAt others parameters entry)
    rcases @length_nameAt others parameters entry with same | ⟨beyond, made, -⟩
    · omega
    · have one : (nameAt others parameters entry).length = parameters.length + 1 := by
        rw [made, length_putAt, if_neg (Nat.lt_irrefl _)]
      simp only [beyond, decide_true, if_true]
      omega

/-- A parameter no entry is for stays as it is. -/
theorem getElem?_nameAll {i : Nat} (inside : i < parameters.length) (unasked : ∀ e ∈ entries, e.position ≠ i) :
    (nameAll others parameters entries)[i]? = parameters[i]? := by
  induction entries generalizing parameters with
  | nil => rfl
  | cons entry rest ih =>
    have longer := @length_le_nameAt others parameters entry
    rw [nameAll, List.foldl_cons, ← nameAll,
      ih (by omega) fun e member => unasked e (List.mem_cons_of_mem entry member)]
    have elsewhere : placeOf parameters.length entry.position ≠ i := by
      have other := unasked entry List.mem_cons_self
      unfold placeOf
      split <;> omega
    have atMost : placeOf parameters.length entry.position ≤ parameters.length := by
      unfold placeOf
      split <;> omega
    unfold nameAt
    dsimp only
    split
    · rfl
    · have names := congrFun (@namesOf_putAt others parameters _ atMost entry.name) (.inl i)
      rw [grant_of_ne (by simpa using elsewhere.symm)] at names
      exact names

/-- Where every position asked for is there in the end, that of the first entry is there
once the entry is done: behind it there are too few entries to make up for one that was not
appended, or was appended too early. -/
theorem first_placed (once : ((entry :: entries).map Entry.position).Nodup)
    (there : ∀ e ∈ entry :: entries, e.position < (nameAll others parameters (entry :: entries)).length) :
    entry.position < (nameAt others parameters entry).length := by
  by_contra beyond
  have bound := @length_nameAll_le others entries (nameAt others parameters entry)
  have last := there entry List.mem_cons_self
  rw [nameAll, List.foldl_cons, ← nameAll] at there last
  generalize (nameAll others (nameAt others parameters entry) entries).length = final at bound last there
  generalize (nameAt others parameters entry).length = count at bound beyond
  have ⟨absent, onceRest⟩ := List.nodup_cons.mp (List.map_cons ▸ once)
  let later := (entries.filter fun e => count ≤ e.position).map Entry.position
  have nodup : later.Nodup := onceRest.sublist (List.filter_sublist.map _)
  have within : later.toFinset ⊆ (Finset.Ico count final).erase entry.position := by
    intro position member
    obtain ⟨e, kept, rfl⟩ := List.mem_map.mp (List.mem_toFinset.mp member)
    obtain ⟨listed, far⟩ := List.mem_filter.mp kept
    have apart : e.position ≠ entry.position := fun same => absent (same ▸ List.mem_map_of_mem listed)
    have below := there e (List.mem_cons_of_mem entry listed)
    simp only [decide_eq_true_eq] at far
    exact Finset.mem_erase.mpr ⟨apart, Finset.mem_Ico.mpr ⟨far, below⟩⟩
  have few := Finset.card_le_card within
  have own : entry.position ∈ Finset.Ico count final := Finset.mem_Ico.mpr ⟨by omega, last⟩
  rw [List.toFinset_card_of_nodup nodup, Finset.card_erase_of_mem own, Nat.card_Ico, List.length_map,
    ← List.countP_eq_length_filter] at few
  omega

/-- An entry for a position that is there or the next one asks for the name at the
position. -/
theorem namesOf_nameAt (here : entry.position ≤ parameters.length) (quiet : entry.throws = false) :
    namesOf (nameAt others parameters entry) others =
      ask (namesOf parameters others) (.inl entry.position, entry.name) := by
  have place := placeOf_of_le here
  by_cases taken : Taken (namesOf parameters others) (.inl entry.position) entry.name
  · rw [nameAt_of_taken place taken, ask_of_taken taken]
  · rw [nameAt_of_free place quiet taken, namesOf_putAt here, ask_of_free taken]

/-- The entries as they come: all positions are there in the end, with the names asked for. -/
structure Placed (others parameters : List String) (entries : List Entry) : Prop where
  gapless : Gapless parameters.length (entries.map Entry.position)
  thrown : ∀ e ∈ entries, e.throws = true → parameters[e.position]? = some e.name
  names : namesOf (nameAll others parameters entries) others =
    (asks entries).foldl ask (namesOf parameters others)

theorem placed_of_landed (once : (entries.map Entry.position).Nodup)
    (landed : ∀ e ∈ entries, (nameAll others parameters entries)[e.position]? = some e.name) :
    Placed others parameters entries := by
  induction entries generalizing parameters with
  | nil => exact ⟨trivial, nofun, rfl⟩
  | cons entry rest ih =>
    have there : ∀ e ∈ entry :: rest, e.position < (nameAll others parameters (entry :: rest)).length :=
      fun e member => (List.getElem?_eq_some_iff.mp (landed e member)).1
    have placed := first_placed once there
    have ⟨absent, onceRest⟩ := List.nodup_cons.mp (List.map_cons ▸ once)
    have apart (e : Entry) (member : e ∈ rest) : e.position ≠ entry.position :=
      fun same => absent (same ▸ List.mem_map_of_mem member)
    have later := @ih (nameAt others parameters entry) onceRest fun e member =>
      landed e (List.mem_cons_of_mem entry member)
    -- after the entry the names are those it asks for, also where it throws
    have step : entry.position ≤ parameters.length ∧
        (entry.throws = true → parameters[entry.position]? = some entry.name) ∧
        (nameAt others parameters entry).length =
          (if entry.position < parameters.length then parameters.length else parameters.length + 1) ∧
        namesOf (nameAt others parameters entry) others =
          ask (namesOf parameters others) (.inl entry.position, entry.name) := by
      rcases @length_nameAt others parameters entry with same | ⟨beyond, made, quiet, free⟩
      · rw [same] at placed
        have held (throws : entry.throws = true) : parameters[entry.position]? = some entry.name := by
          have own := landed entry List.mem_cons_self
          rw [nameAll, List.foldl_cons, ← nameAll, nameAt_of_throws throws,
            getElem?_nameAll placed fun e member => apart e member] at own
          exact own
        refine ⟨placed.le, held, by rw [same, if_pos placed], ?_⟩
        cases throws : entry.throws with
        | false => exact namesOf_nameAt placed.le throws
        | true =>
          rw [nameAt_of_throws throws, ask_of_held]
          exact held throws
      · have one : (nameAt others parameters entry).length = parameters.length + 1 := by
          rw [made, length_putAt, if_neg (Nat.lt_irrefl _)]
        have next : entry.position = parameters.length := by omega
        refine ⟨next.le, fun throws => absurd throws (by simp [quiet]), ?_, namesOf_nameAt next.le quiet⟩
        rw [one, if_neg (by omega)]
    obtain ⟨near, held, length, names⟩ := step
    refine ⟨?_, ?_, ?_⟩
    · have gapless := later.gapless
      rw [length] at gapless
      rw [List.map_cons, Gapless]
      split
      · rename_i inside
        rwa [if_pos inside] at gapless
      · rename_i behind
        rw [if_neg behind] at gapless
        exact ⟨by omega, gapless⟩
    · intro e member throws
      rcases List.mem_cons.mp member with rfl | member
      · exact held throws
      · have kept := congrFun names (.inl e.position)
        rw [ask_of_ne (by simpa using apart e member)] at kept
        exact kept.symm.trans (later.thrown e member throws)
    · rw [nameAll, List.foldl_cons, ← nameAll, later.names, names]
      rfl

/-- Without a gap and without a refusal the names come out as wanted. -/
theorem names_of_gapless (once : (entries.map Entry.position).Nodup)
    (gapless : Gapless parameters.length (entries.map Entry.position))
    (thrown : ∀ e ∈ entries, e.throws = true → parameters[e.position]? = some e.name)
    (distinct : Distinct (wanted (namesOf parameters others) (asks entries)))
    (ordered : entries.Pairwise fun a b => parameters[b.position]? ≠ some a.name) :
    namesOf (nameAll others parameters entries) others = wanted (namesOf parameters others) (asks entries) := by
  induction entries generalizing parameters with
  | nil => rfl
  | cons entry rest ih =>
    have ⟨absent, onceRest⟩ := List.nodup_cons.mp (List.map_cons ▸ once)
    have ⟨ahead, orderedRest⟩ := List.pairwise_cons.mp ordered
    have apart (e : Entry) (member : e ∈ rest) : e.position ≠ entry.position :=
      fun same => absent (same ▸ List.mem_map_of_mem member)
    have onceAsked := asks_nodup once
    have free : ¬Taken (namesOf parameters others) (.inl entry.position) entry.name := by
      refine not_taken_of_distinct onceAsked distinct fun request member => ?_
      obtain ⟨e, listed, rfl⟩ := List.mem_map.mp member
      exact ahead e listed
    rw [List.map_cons, Gapless] at gapless
    have near : entry.position ≤ parameters.length := by
      split at gapless <;> omega
    -- an entry that throws leaves the name it asks for
    have names : namesOf (nameAt others parameters entry) others =
        grant (namesOf parameters others) (.inl entry.position, entry.name) := by
      cases throws : entry.throws with
      | true =>
        rw [nameAt_of_throws throws, grant_of_held]
        exact thrown entry List.mem_cons_self throws
      | false => rw [namesOf_nameAt near throws, ask_of_free free]
    have kept (e : Entry) (member : e ∈ rest) :
        (nameAt others parameters entry)[e.position]? = parameters[e.position]? := by
      have same := congrFun names (.inl e.position)
      rw [grant_of_ne (by simpa using apart e member)] at same
      exact same
    have gaplessRest : Gapless (nameAt others parameters entry).length (rest.map Entry.position) := by
      rcases @length_nameAt others parameters entry with same | ⟨beyond, made, -⟩
      · rw [same]
        split at gapless
        · exact gapless
        · -- a parameter was asked for behind the last one and is there now
          have own := congrFun names (.inl entry.position)
          rw [grant_self] at own
          have inside := (List.getElem?_eq_some_iff.mp own).1
          omega
      · rw [if_neg (by omega)] at gapless
        rw [made, length_putAt, if_neg (Nat.lt_irrefl _)]
        exact gapless.2
    rw [nameAll, List.foldl_cons, ← nameAll, ih onceRest gaplessRest _ _ _, names]
    · rfl
    · exact fun e member throws => (kept e member).trans (thrown e (List.mem_cons_of_mem entry member) throws)
    · rw [names]
      exact distinct
    · exact orderedRest.imp_of_mem fun _ second differs => by rwa [kept _ second]

/-- The names asked for are at their positions, and those at other positions as they were. -/
def Lands (others parameters : List String) (entries : List Entry) : Prop :=
  (∀ e ∈ entries, (nameAll others parameters entries)[e.position]? = some e.name) ∧
    ∀ i, (∀ e ∈ entries, e.position ≠ i) → (nameAll others parameters entries)[i]? = parameters[i]?

theorem lands_iff (once : (entries.map Entry.position).Nodup) (before : Distinct (namesOf parameters others)) :
    Lands others parameters entries ↔
      Gapless parameters.length (entries.map Entry.position) ∧
        (∀ e ∈ entries, e.throws = true → parameters[e.position]? = some e.name) ∧
        Distinct (wanted (namesOf parameters others) (asks entries)) ∧
        entries.Pairwise fun a b => parameters[b.position]? ≠ some a.name := by
  have onceAsked := asks_nodup once
  constructor
  · rintro ⟨landed, -⟩
    obtain ⟨gapless, thrown, names⟩ := placed_of_landed once landed
    have granted : ∀ request ∈ asks entries,
        (asks entries).foldl ask (namesOf parameters others) request.1 = some request.2 := by
      intro request member
      obtain ⟨e, listed, rfl⟩ := List.mem_map.mp member
      rw [← names]
      exact landed e listed
    obtain ⟨distinct, ordered⟩ := (all_granted_iff onceAsked before).mp granted
    rw [asks, List.pairwise_map] at ordered
    exact ⟨gapless, thrown, distinct, ordered⟩
  · rintro ⟨gapless, thrown, distinct, ordered⟩
    have names := names_of_gapless once gapless thrown distinct ordered
    constructor
    · intro e member
      have own := congrFun names (.inl e.position)
      rw [@wanted_of_mem _ _ _ _ (.inl e.position, e.name) _ onceAsked (List.mem_map_of_mem member)] at own
      exact own
    · intro i unasked
      have same := congrFun names (.inl i)
      rw [wanted_of_not_mem] at same
      · exact same
      · rw [asks_keys]
        simpa using unasked

end Positions

/-! ## The array -/

variable {space : AddressSpace} {P : Type}

/-- What Ghidra says of the parameters of the function at an address, its other variables
given by their names: `setName` and `addParameter` throw for a name another variable of the
function holds; otherwise the one sets the name and the other appends a parameter. -/
structure ListedParameters (lib : ProgramLibrary space P) (addr : space.Address) where
  parameters : P → List String
  others : List String
  found : ∀ p, lib.hasFunctionAt p addr = true
  counted : ∀ p, lib.countParameters p addr = some (parameters p).length
  setRefused : ∀ {p i name}, Taken (namesOf (parameters p) others) (.inl i) name →
    lib.setParameterName p addr i name = none
  set : ∀ {p i name}, i < (parameters p).length → name ≠ "" → ¬Taken (namesOf (parameters p) others) (.inl i) name →
    ∃ later, lib.setParameterName p addr i name = some later ∧ parameters later = (parameters p).set i name
  addRefused : ∀ {p name type}, (∃ key, namesOf (parameters p) others key = some name) →
    lib.addParameter p addr name type = none
  add : ∀ {p name type}, name ≠ "" → (¬∃ key, namesOf (parameters p) others key = some name) →
    ∃ later, lib.addParameter p addr name type = some later ∧ parameters later = parameters p ++ [name]
  retyped : ∀ {p i type later}, lib.setParameterType p addr i type = some later → parameters later = parameters p

section Array
variable {lib : ProgramLibrary space P} {addr : space.Address} (function : ListedParameters lib addr)
  (types : TypeLibrary) (manager : DataTypeManager) (rebase : UInt64) (program : P) (news : List NewParam)

/-- New parameters for one function, as the client sends them: named, and one for each
position. -/
structure SentFor : Prop where
  named : ∀ n ∈ news, n.name ≠ ""
  arguments : ∀ n ∈ news, n.isLocal = false
  place : ∀ n ∈ news, space.getAddress (n.funcAddr - rebase) = some addr
  once : (news.map NewParam.ordinal).Nodup
  before : Distinct (namesOf (function.parameters program) function.others)

/-- The parameter at each sent ordinal has the sent name, and those at other ordinals have
the names they had. -/
def LandAtOrdinals : Prop :=
  ∃ applied, applyParameters lib types manager program (news.map (CheckinJson.newParamEntry rebase)) = some applied ∧
    (∀ n ∈ news, 0 ≤ n.ordinal ∧ (function.parameters applied.program)[n.ordinal.toInt.toNat]? = some n.name) ∧
    ∀ i : Nat, (∀ n ∈ news, n.ordinal.toInt ≠ i) →
      (function.parameters applied.program)[i]? = (function.parameters program)[i]?

/-- The text of the type ends the entry with an exception. -/
def typeThrows (n : NewParam) : Bool :=
  (resolveOptional types manager (CheckinJson.newParamEntry rebase n) "type_name").isNone

def entryOf (n : NewParam) : Entry := ⟨n.ordinal.toInt.toNat, n.name, typeThrows types manager rebase n⟩

variable {program news}

/-- One entry: `nameAt` of its position, where the position is not negative. -/
theorem parameterAt_parameters (applied : Counted P) (n : NewParam) (named : n.name ≠ "") (counts : 0 ≤ n.ordinal) :
    function.parameters
        (parameterAt lib types manager n.ordinal n.name (CheckinJson.newParamEntry rebase n) addr applied).program =
      nameAt function.others (function.parameters applied.program) (entryOf types manager rebase n) := by
  have nonneg : 0 ≤ n.ordinal.toInt := by simpa using Int32.le_iff_toInt_le.mp counts
  rw [parameterAt, if_neg (by simp [function.found]), function.counted]
  cases resolved : resolveOptional types manager (CheckinJson.newParamEntry rebase n) "type_name" with
  | none =>
    have throws : (entryOf types manager rebase n).throws = true := by simp [entryOf, typeThrows, resolved]
    rw [nameAt_of_throws throws]
  | some type =>
    have quiet : (entryOf types manager rebase n).throws = false := by simp [entryOf, typeThrows, resolved]
    dsimp only
    by_cases inside : n.ordinal.toInt.toNat < (function.parameters applied.program).length
    · have place : placeOf (function.parameters applied.program).length
          (entryOf types manager rebase n).position = n.ordinal.toInt.toNat := if_pos inside
      rw [if_pos ⟨counts, by omega⟩]
      by_cases taken : Taken (namesOf (function.parameters applied.program) function.others)
          (.inl n.ordinal.toInt.toNat) n.name
      · rw [function.setRefused taken, nameAt_of_taken place taken]
      · obtain ⟨later, set, names⟩ := function.set inside named taken
        rw [set, nameAt_of_free place quiet taken, putAt, if_pos inside]
        refine Eq.trans ?_ names
        cases type with
        | none => rfl
        | some type =>
          dsimp only [Option.bind_some]
          cases retyped : lib.setParameterType later addr n.ordinal.toInt.toNat type with
          | none => rfl
          | some final => exact function.retyped retyped
    · have place : placeOf (function.parameters applied.program).length
          (entryOf types manager rebase n).position = (function.parameters applied.program).length := if_neg inside
      have holder : Taken (namesOf (function.parameters applied.program) function.others)
            (.inl (function.parameters applied.program).length) n.name ↔
          ∃ key, namesOf (function.parameters applied.program) function.others key = some n.name := by
        constructor
        · rintro ⟨key, -, holds⟩
          exact ⟨key, holds⟩
        · rintro ⟨key, holds⟩
          refine ⟨key, ?_, holds⟩
          rintro rfl
          simp [namesOf] at holds
      rw [if_neg (by omega)]
      by_cases taken : ∃ key, namesOf (function.parameters applied.program) function.others key = some n.name
      · rw [nameAt_of_taken place (holder.mpr taken), function.addRefused taken]
        rfl
      · obtain ⟨later, added, names⟩ :=
          @ListedParameters.add _ _ _ _ function applied.program n.name type named taken
        rw [nameAt_of_free place quiet (mt holder.mp taken), putAt, if_neg (Nat.lt_irrefl _), added]
        exact names

/-- The array is run to its end. -/
theorem applyParameters_parameters (applied : Counted P) (sent : ∀ n ∈ news, n.name ≠ "" ∧ n.isLocal = false ∧
      space.getAddress (n.funcAddr - rebase) = some addr) (counts : ∀ n ∈ news, 0 ≤ n.ordinal) :
    ∃ final, (news.map (CheckinJson.newParamEntry rebase)).foldlM (applyParameter lib types manager) applied =
        some final ∧
      function.parameters final.program =
        nameAll function.others (function.parameters applied.program) (news.map (entryOf types manager rebase)) := by
  induction news generalizing applied with
  | nil => exact ⟨applied, rfl, rfl⟩
  | cons n rest ih =>
    obtain ⟨named, argument, place⟩ := sent n List.mem_cons_self
    have first := parameterAt_parameters function types manager rebase applied n named (counts n List.mem_cons_self)
    have passed : applyParameter lib types manager applied (CheckinJson.newParamEntry rebase n) =
        some (parameterAt lib types manager n.ordinal n.name (CheckinJson.newParamEntry rebase n) addr applied) := by
      have acts := AddressAcceptance.parameters_pass lib types manager rebase n named argument applied
      rw [place] at acts
      exact acts
    obtain ⟨final, ran, parameters⟩ :=
      ih (parameterAt lib types manager n.ordinal n.name (CheckinJson.newParamEntry rebase n) addr applied)
        (fun other member => sent other (List.mem_cons_of_mem n member))
        fun other member => counts other (List.mem_cons_of_mem n member)
    refine ⟨final, ?_, ?_⟩
    · rw [List.map_cons, List.foldlM_cons, passed]
      exact ran
    · rw [parameters, first]
      rfl

variable {types manager rebase}

/-- The new parameters land at their ordinals exactly when those beyond the function's last
parameter come in order and without a gap, no type text throws (but for a parameter that has
the name already), the names come out distinct, and none asks for the name of a parameter
named later. -/
theorem new_parameters_land_iff (sent : SentFor function rebase program news) :
    LandAtOrdinals function types manager rebase program news ↔
      (∀ n ∈ news, 0 ≤ n.ordinal) ∧
        Gapless (function.parameters program).length (news.map fun n => n.ordinal.toInt.toNat) ∧
        (∀ n ∈ news, typeThrows types manager rebase n = true →
          (function.parameters program)[n.ordinal.toInt.toNat]? = some n.name) ∧
        Distinct (wanted (namesOf (function.parameters program) function.others)
          (news.map fun n => (.inl n.ordinal.toInt.toNat, n.name))) ∧
        news.Pairwise fun a b => (function.parameters program)[b.ordinal.toInt.toNat]? ≠ some a.name := by
  by_cases counts : ∀ n ∈ news, 0 ≤ n.ordinal
  swap
  · refine ⟨?_, fun conditions => absurd conditions.1 counts⟩
    rintro ⟨applied, -, landed, -⟩
    exact absurd (fun n member => (landed n member).1) counts
  obtain ⟨final, ran, parameters⟩ := applyParameters_parameters function types manager rebase { program }
    (fun n member => ⟨sent.named n member, sent.arguments n member, sent.place n member⟩) counts
  have nonneg : ∀ n ∈ news, 0 ≤ n.ordinal.toInt := fun n member => by
    simpa using Int32.le_iff_toInt_le.mp (counts n member)
  have once : ((news.map (entryOf types manager rebase)).map Entry.position).Nodup := by
    rw [List.map_map]
    refine List.Nodup.map_on (fun a first b second same => ?_) sent.once.of_map
    have equal : a.ordinal.toInt.toNat = b.ordinal.toInt.toNat := same
    have ordinals : a.ordinal = b.ordinal := by
      have left := nonneg a first
      have right := nonneg b second
      exact Int32.toInt_inj.mp (by omega)
    exact List.inj_on_of_nodup_map sent.once first second ordinals
  have positions (i : Nat) : (∀ e ∈ news.map (entryOf types manager rebase), e.position ≠ i) ↔
      ∀ n ∈ news, n.ordinal.toInt ≠ i := by
    rw [List.forall_mem_map]
    refine forall₂_congr fun n member => not_congr ?_
    have left := nonneg n member
    change n.ordinal.toInt.toNat = i ↔ _
    omega
  have lands := lands_iff once sent.before
  rw [List.map_map, List.pairwise_map, asks, List.map_map] at lands
  rw [and_iff_right counts]
  refine Iff.trans ?_ (lands.trans ?_)
  · constructor
    · rintro ⟨applied, same, landed, kept⟩
      rw [applyParameters, ran, Option.some.injEq] at same
      rw [← same, parameters] at landed kept
      refine ⟨?_, fun i unasked => kept i ((positions i).mp unasked)⟩
      rw [List.forall_mem_map]
      exact fun n member => (landed n member).2
    · rintro ⟨landed, kept⟩
      rw [← parameters] at landed kept
      rw [List.forall_mem_map] at landed
      exact ⟨final, ran, fun n member => ⟨counts n member, landed n member⟩,
        fun i unasked => kept i ((positions i).mpr unasked)⟩
  · rw [List.forall_mem_map]
    rfl

end Array

/-! ## A function without locals -/

/-- A program of one function, by the names of its parameters. -/
def parameterLibrary : ProgramLibrary {} (List String) where
  hasSymbol _ _ := false
  setName _ _ _ := none
  createLabel _ _ _ := none
  isVariable _ _ := false
  setVariableType _ _ _ := none
  hasFunctionAt _ _ := true
  countParameters p _ := some p.length
  setParameterName p _ i name :=
    if (List.range p.length).any fun j => j ≠ i && p[j]? = some name then none else some (p.set i name)
  setParameterType p _ _ _ := some p
  addParameter p _ name _ := if name ∈ p then none else some (p ++ [name])
  getDataAt _ _ := none
  clearCodeUnits _ _ _ := none
  createData _ _ _ := none
  hasFunction _ _ := some false
  setReturnType _ _ _ := none
  callingConventions _ := []
  setCallingConvention _ _ _ := none

private theorem taken_iff {p : List String} {i : Nat} {name : String} :
    Taken (namesOf p []) (.inl i) name ↔
      ((List.range p.length).any fun j => j ≠ i && p[j]? = some name) = true := by
  rw [List.any_eq_true]
  constructor
  · rintro ⟨j | j, apart, holds⟩
    · have inside : j < p.length := (List.getElem?_eq_some_iff.mp holds).1
      have here : p[j]? = some name := holds
      exact ⟨j, List.mem_range.mpr inside, by simpa [here] using apart⟩
    · simp [namesOf] at holds
  · rintro ⟨j, -, both⟩
    simp only [Bool.and_eq_true, decide_eq_true_eq] at both
    exact ⟨.inl j, by simpa using both.1, both.2⟩

private theorem held_iff {p : List String} {name : String} : (∃ key, namesOf p [] key = some name) ↔ name ∈ p := by
  constructor
  · rintro ⟨j | j, holds⟩
    · exact List.mem_of_getElem? holds
    · simp [namesOf] at holds
  · intro member
    obtain ⟨j, holds⟩ := List.mem_iff_getElem?.mp member
    exact ⟨.inl j, holds⟩

def entryPoint : AddressSpace.Address {} := ⟨0x401000, rfl⟩

def listedParameters : ListedParameters parameterLibrary entryPoint where
  parameters p := p
  others := []
  found _ := rfl
  counted _ := rfl
  setRefused taken := if_pos (taken_iff.mp taken)
  set _ _ free := ⟨_, if_neg (mt taken_iff.mpr free), rfl⟩
  addRefused held := if_pos (held_iff.mp held)
  add _ free := ⟨_, if_neg (mt held_iff.mpr free), rfl⟩
  retyped same := (Option.some.inj same).symm

private theorem sentFor_empty {news : List NewParam} (named : ∀ n ∈ news, n.name ≠ "")
    (arguments : ∀ n ∈ news, n.isLocal = false) (place : ∀ n ∈ news, n.funcAddr = 0x401000)
    (once : (news.map NewParam.ordinal).Nodup) : SentFor listedParameters 0 [] news where
  named := named
  arguments := arguments
  place n member := by
    rw [place n member]
    rfl
  once := once
  before := by
    rintro (j | j) other name holds
    · simp [namesOf, listedParameters] at holds
    · simp [namesOf, listedParameters] at holds

theorem two_new_parameters_land :
    let news : List NewParam := [⟨0x401000, 0, "size", "", false⟩, ⟨0x401000, 1, "count", "", false⟩]
    SentFor listedParameters 0 [] news ∧ LandAtOrdinals listedParameters noTypes ∅ 0 [] news := by
  intro news
  have sent : SentFor listedParameters 0 [] news :=
    sentFor_empty (by decide) (by decide) (by decide) (by decide)
  refine ⟨sent, (new_parameters_land_iff listedParameters sent).mpr ⟨by decide, ?_, ?_, ?_, ?_⟩⟩
  · simp [news, Gapless, listedParameters]
  · decide +kernel
  · have empty (key : Nat ⊕ Nat) : namesOf (listedParameters.parameters []) listedParameters.others key = none := by
      rcases key with j | j <;> rfl
    intro key other name holds alsoHolds
    simp only [news, List.map_cons, List.map_nil, wanted, List.foldl_cons, List.foldl_nil, grant,
      Function.update_apply, empty] at holds alsoHolds
    grind
  · simp [listedParameters, news]

/-- The only parameter somebody named is the third; it becomes the first. -/
theorem third_parameter_becomes_first :
    let news : List NewParam := [⟨0x401000, 2, "flags", "", false⟩]
    SentFor listedParameters 0 [] news ∧
      (applyParameters parameterLibrary noTypes ∅ [] (news.map (CheckinJson.newParamEntry 0))).map
        (fun applied => applied.program) = some ["flags"] ∧
      ¬LandAtOrdinals listedParameters noTypes ∅ 0 [] news := by
  intro news
  have first : (applyParameters parameterLibrary noTypes ∅ [] (news.map (CheckinJson.newParamEntry 0))).map
      (fun applied => applied.program) = some ["flags"] := by decide +kernel
  refine ⟨sentFor_empty (by decide) (by decide) (by decide) (by decide), first, ?_⟩
  rintro ⟨applied, ran, landed, -⟩
  rw [ran, Option.map_some, Option.some.injEq] at first
  have third : applied.program[2]? = some "flags" := (landed ⟨0x401000, 2, "flags", "", false⟩ List.mem_cons_self).2
  rw [first] at third
  exact absurd third (by decide)

end GhidraBridge.NewParameters
