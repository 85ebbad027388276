import GhidraBridge.Convergence

/-! Function signatures against the list a single rule would make of them. The two
loops of the collection compare the same things but for one: where Ghidra recorded
a convention and no return type, the first loop leaves the return type out and the
second skips the function. -/
namespace GhidraBridge.SignatureDiff
open Lib CheckinState BaselineMoves CheckinRetention Convergence

variable {state next : CheckinState} {view : BinaryView}

/-! ## The reference list -/

/-- The convention an entry is to carry: one that differs from Ghidra's, or from the
platform's default where Ghidra has none. -/
def expectedConvention (state : CheckinState) (key : Int64) (func : BNFunction) : String :=
  let current := func.callingConvention.getD ""
  match state.funcOriginalCC.lookup key with
  | some recorded => if canonicalCCName current ≠ canonicalCCName recorded then current else ""
  | none =>
    let standard := func.platformConvention.getD ""
    if standard ≠ "" ∧ canonicalCCName current ≠ canonicalCCName standard then current else ""

/-- The return type an entry is to carry: one Ghidra has none for, or another than
Ghidra's. -/
def expectedReturn (state : CheckinState) (view : BinaryView) (key : Int64) (func : BNFunction) : String :=
  let current := typeText view func.returnType
  match state.funcOriginalRetType.lookup key with
  | some recorded => if canonicalTypeName current ≠ canonicalTypeName recorded then current else ""
  | none => current

/-- The whole entry of a function with a user type at an address with a key. -/
def expectedSig (state : CheckinState) (view : BinaryView) (func : BNFunction) : Option FuncSigChange :=
  if func.hasUserType then
    (state.addrToKey.lookup func.start).bind fun key =>
      sigChange key (expectedConvention state key func) (expectedReturn state view key func)
  else none

def expectedSigs (state : CheckinState) (view : BinaryView) : List FuncSigChange :=
  view.functions.filterMap (expectedSig state view)

theorem typedConvention_eq (key : Int64) (func : BNFunction) :
    typedConvention state key func = expectedConvention state key func := by
  unfold typedConvention expectedConvention
  cases func.callingConvention with
  | none => cases state.funcOriginalCC.lookup key <;> simp
  | some current => rfl

theorem typedReturn_eq (key : Int64) (func : BNFunction) :
    typedReturn state view key func = expectedReturn state view key func := by
  unfold typedReturn expectedReturn typeText
  cases func.returnType with
  | none => cases state.funcOriginalRetType.lookup key <;> simp
  | some ret => cases state.funcOriginalRetType.lookup key <;> rfl

theorem recordedConvention_eq {key : Int64} {origCC : String} (recorded : state.funcOriginalCC.lookup key = some origCC)
    (func : BNFunction) : recordedConvention origCC func = expectedConvention state key func := by
  unfold recordedConvention expectedConvention
  rw [recorded]
  by_cases empty : func.callingConvention.getD "" = ""
  · simp [empty]
  · simp [empty]

theorem recordedReturn_eq {key : Int64} {origRet : String}
    (recorded : state.funcOriginalRetType.lookup key = some origRet) (func : BNFunction) :
    recordedReturn state view key func = expectedReturn state view key func := by
  unfold recordedReturn expectedReturn
  rw [recorded]
  by_cases empty : typeText view func.returnType = ""
  · simp [empty]
  · simp [empty]

theorem sigChange_iff {key : Int64} {convention returnType : String} {c : FuncSigChange} :
    sigChange key convention returnType = some c ↔
      (convention ≠ "" ∨ returnType ≠ "") ∧ c = ⟨key, convention, returnType⟩ := by
  unfold sigChange
  split
  · rename_i carries
    rw [Option.some.injEq, eq_comm]
    exact (and_iff_right carries).symm
  · rename_i empty
    simp [empty]

theorem expectedSig_eq_some {func : BNFunction} {c : FuncSigChange} :
    expectedSig state view func = some c ↔
      func.hasUserType = true ∧ state.addrToKey.lookup func.start = some c.key ∧
        (c.callingConvention ≠ "" ∨ c.returnTypeName ≠ "") ∧
        c.callingConvention = expectedConvention state c.key func ∧
        c.returnTypeName = expectedReturn state view c.key func := by
  unfold expectedSig
  split
  · rename_i typed
    rw [Option.bind_eq_some_iff, and_iff_right typed]
    constructor
    · rintro ⟨key, held, made⟩
      obtain ⟨carries, rfl⟩ := sigChange_iff.mp made
      exact ⟨held, carries, rfl, rfl⟩
    · rintro ⟨held, carries, convention, returnType⟩
      refine ⟨c.key, held, sigChange_iff.mpr ⟨?_, ?_⟩⟩
      · rwa [← convention, ← returnType]
      · rw [← convention, ← returnType]
  · rename_i untyped
    simp [untyped]

/-! ## The second loop -/

/-- A function queues its whole entry unless its key is queued. -/
theorem queueSigOfFunction_eq (queued : List FuncSigChange) (func : BNFunction) :
    queueSigOfFunction state view queued func =
      match expectedSig state view func with
      | none => queued
      | some c => if queued.any fun before => before.key = c.key then queued else queued ++ [c] := by
  unfold queueSigOfFunction expectedSig
  cases typed : func.hasUserType with
  | false => simp
  | true =>
    simp only [Bool.true_eq_false, if_false, if_true]
    cases state.addrToKey.lookup func.start with
    | none => rfl
    | some key =>
      dsimp only [Option.bind_some]
      rw [← typedConvention_eq, ← typedReturn_eq, ← sigOfFunction]
      cases made : sigOfFunction state view key func with
      | none => simp
      | some c =>
        have keyed : c.key = key := by
          obtain ⟨_, rfl⟩ := sigChange_iff.mp made
          rfl
        subst keyed
        rw [Option.toList_some]

theorem mem_foldl_of_queued {functions : List BNFunction} {queued : List FuncSigChange} {c : FuncSigChange}
    (member : c ∈ queued) : c ∈ functions.foldl (queueSigOfFunction state view) queued := by
  refine List.foldlRecOn functions (queueSigOfFunction state view) (motive := fun list => c ∈ list) member ?_
  intro list held func _
  rw [queueSigOfFunction_eq]
  split
  · exact held
  · split
    · exact held
    · exact List.mem_append_left _ held

/-- Where no two functions of a key differ, the second loop takes every difference
whose key the first has not queued. -/
theorem mem_foldl_queueSig {functions : List BNFunction} {queued : List FuncSigChange} {c : FuncSigChange}
    (single : (functions.filterMap (expectedSig state view)).Pairwise fun first second => first.key ≠ second.key) :
    c ∈ functions.foldl (queueSigOfFunction state view) queued ↔
      c ∈ queued ∨ (c ∈ functions.filterMap (expectedSig state view) ∧ ∀ before ∈ queued, before.key ≠ c.key) := by
  induction functions generalizing queued with
  | nil => simp
  | cons func rest ih =>
    rw [List.foldl_cons, queueSigOfFunction_eq]
    cases made : expectedSig state view func with
    | none =>
      rw [List.filterMap_cons_none made] at single ⊢
      exact ih single
    | some new =>
      rw [List.filterMap_cons_some made, List.pairwise_cons] at single
      rw [List.filterMap_cons_some made, List.mem_cons, ih single.2]
      dsimp only
      split
      · rename_i taken
        have skipped : ¬(c = new ∧ ∀ before ∈ queued, before.key ≠ c.key) := by
          rintro ⟨rfl, free⟩
          obtain ⟨before, member, same⟩ := List.any_eq_true.mp taken
          exact free before member (of_decide_eq_true same)
        rw [or_and_right, or_iff_right skipped]
      · rename_i untaken
        have free : ∀ before ∈ queued, before.key ≠ new.key := by simpa using untaken
        simp only [List.mem_append, List.mem_singleton]
        constructor
        · rintro ((before | rfl) | ⟨later, apart⟩)
          · exact .inl before
          · exact .inr ⟨.inl rfl, free⟩
          · exact .inr ⟨.inr later, fun before member => apart before (.inl member)⟩
        · rintro (before | ⟨rfl | later, apart⟩)
          · exact .inl (.inl before)
          · exact .inl (.inr rfl)
          · refine .inr ⟨later, ?_⟩
            rintro before (member | rfl)
            · exact apart before member
            · exact single.1 c later

/-- The walk queues nothing exactly when there was nothing and nothing differs. -/
theorem foldl_queueSig_eq_nil {functions : List BNFunction} {queued : List FuncSigChange} :
    functions.foldl (queueSigOfFunction state view) queued = [] ↔
      queued = [] ∧ ∀ func ∈ functions, expectedSig state view func = none := by
  induction functions generalizing queued with
  | nil => simp
  | cons func rest ih =>
    rw [List.foldl_cons, ih, queueSigOfFunction_eq, List.forall_mem_cons]
    cases expectedSig state view func with
    | none => simp
    | some c =>
      dsimp only
      split
      · rename_i taken
        have nonempty : queued ≠ [] := by
          rintro rfl
          cases taken
        simp [nonempty]
      · simp

/-! ## The first loop -/

/-- No two addresses have the same key. -/
def DistinctKeys (state : CheckinState) : Prop :=
  ∀ first second key, state.addrToKey.lookup first = some key → state.addrToKey.lookup second = some key →
    first = second

theorem addrToKey_of_keyToBnAddr {key : Int64} {addr : UInt64} (found : state.keyToBnAddr.lookup key = some addr) :
    state.addrToKey.lookup addr = some key := by
  rw [keyToBnAddr, Table.lookup_writeAll, AList.lookup_empty, Option.or_none] at found
  obtain ⟨entry, last, rfl⟩ := Option.map_eq_some_iff.mp found
  have keyed : entry.2 = key := by simpa using List.find?_some last
  have listed := List.mem_reverse.mp (List.mem_of_find?_eq_some last)
  rw [← keyed]
  exact Table.mem_items.mp listed

theorem keyToBnAddr_of_addrToKey (distinct : DistinctKeys state) {key : Int64} {addr : UInt64}
    (held : state.addrToKey.lookup addr = some key) : state.keyToBnAddr.lookup key = some addr := by
  have listed := Table.mem_items.mpr held
  refine @Table.lookup_writeAll_of_mem _ _ _ _ ∅ Prod.snd Prod.fst _ (addr, key) listed ?_
  rintro ⟨other, otherKey⟩ otherListed same
  obtain rfl : otherKey = key := same
  exact distinct other addr otherKey (Table.mem_items.mp otherListed) held

/-- What the first loop queues. -/
def recordedSigs (state : CheckinState) (view : BinaryView) : List FuncSigChange :=
  state.funcOriginalCC.items.filterMap fun entry => sigWithConvention state view entry.1 entry.2

/-- An entry of the first loop is about the first function at the address of its
key. It carries the return type only where one was recorded. -/
theorem mem_recordedSigs {c : FuncSigChange} (member : c ∈ recordedSigs state view) :
    ∃ func ∈ view.functions, view.functionAt func.start = some func ∧ func.hasUserType = true ∧
      state.addrToKey.lookup func.start = some c.key ∧ (∃ origCC, state.funcOriginalCC.lookup c.key = some origCC) ∧
      (c.callingConvention ≠ "" ∨ c.returnTypeName ≠ "") ∧
      c.callingConvention = expectedConvention state c.key func ∧
      c.returnTypeName =
        if state.funcOriginalRetType.lookup c.key = none then "" else expectedReturn state view c.key func := by
  obtain ⟨⟨key, origCC⟩, listed, made⟩ := List.mem_filterMap.mp member
  have recorded := Table.mem_items.mp listed
  obtain ⟨func, found, made⟩ := Option.bind_eq_some_iff.mp made
  obtain ⟨addr, located, found⟩ := Option.bind_eq_some_iff.mp found
  have start : func.start = addr := by simpa using List.find?_some found
  subst start
  split at made
  · cases made
  · rename_i typed
    obtain ⟨carries, rfl⟩ := sigChange_iff.mp made
    refine ⟨func, List.mem_of_find?_eq_some found, found, by simpa using typed, addrToKey_of_keyToBnAddr located,
      ⟨origCC, recorded⟩, carries, recordedConvention_eq recorded func, ?_⟩
    cases held : state.funcOriginalRetType.lookup key with
    | none => simp [recordedReturn, held]
    | some origRet =>
      rw [if_neg (by simp)]
      exact recordedReturn_eq held func

/-- A convention that differs from the recorded one is queued by the first loop. -/
theorem exists_recordedSig (distinct : DistinctKeys state) {func : BNFunction} {key : Int64} {origCC : String}
    (found : view.functionAt func.start = some func) (typed : func.hasUserType = true)
    (held : state.addrToKey.lookup func.start = some key) (recorded : state.funcOriginalCC.lookup key = some origCC)
    (differs : expectedConvention state key func ≠ "") : ∃ c ∈ recordedSigs state view, c.key = key := by
  rw [← recordedConvention_eq recorded] at differs
  refine ⟨⟨key, recordedConvention origCC func, recordedReturn state view key func⟩, ?_, rfl⟩
  refine List.mem_filterMap.mpr ⟨(key, origCC), Table.mem_items.mpr recorded, ?_⟩
  rw [sigWithConvention, keyToBnAddr_of_addrToKey distinct held, Option.bind_some, found, Option.bind_some,
    if_neg (by simp [typed])]
  exact sigChange_iff.mpr ⟨.inl differs, rfl⟩

theorem collectFuncSigs_eq :
    collectFuncSigs state view = view.functions.foldl (queueSigOfFunction state view) (recordedSigs state view) := rfl

/-! ## Where the two lists agree -/

/-- At most one function of a start differs. -/
def SingleDifference (state : CheckinState) (view : BinaryView) : Prop :=
  view.functions.Pairwise fun first second =>
    first.start = second.start → expectedSig state view first = none ∨ expectedSig state view second = none

/-- Where a convention was recorded and no return type, a function that changes the
convention has no return type to send. -/
def ConventionAlone (state : CheckinState) (view : BinaryView) : Prop :=
  ∀ func key origCC, view.functionAt func.start = some func → func.hasUserType = true →
    state.addrToKey.lookup func.start = some key → state.funcOriginalCC.lookup key = some origCC →
    state.funcOriginalRetType.lookup key = none → expectedConvention state key func ≠ "" →
      typeText view func.returnType = ""

theorem expectedSigs_distinct_iff (distinct : DistinctKeys state) :
    (expectedSigs state view).Pairwise (fun first second => first.key ≠ second.key) ↔
      SingleDifference state view := by
  rw [expectedSigs, List.pairwise_filterMap, SingleDifference]
  have rule (first second : BNFunction) :
      (∀ c, expectedSig state view first = some c → ∀ d, expectedSig state view second = some d → c.key ≠ d.key) ↔
        (first.start = second.start → expectedSig state view first = none ∨ expectedSig state view second = none) := by
    constructor
    · intro apart same
      by_contra both
      obtain ⟨some₁, some₂⟩ := not_or.mp both
      obtain ⟨c, made⟩ := Option.ne_none_iff_exists'.mp some₁
      obtain ⟨d, otherMade⟩ := Option.ne_none_iff_exists'.mp some₂
      obtain ⟨_, held, _⟩ := expectedSig_eq_some.mp made
      obtain ⟨_, otherHeld, _⟩ := expectedSig_eq_some.mp otherMade
      rw [same, otherHeld, Option.some.injEq] at held
      exact apart c made d otherMade held.symm
    · intro single c made d otherMade sameKey
      obtain ⟨_, held, _⟩ := expectedSig_eq_some.mp made
      obtain ⟨_, otherHeld, _⟩ := expectedSig_eq_some.mp otherMade
      rcases single (distinct _ _ _ held (sameKey ▸ otherHeld)) with none | none
      · rw [none] at made
        cases made
      · rw [none] at otherMade
        cases otherMade
  exact ⟨fun pairs => pairs.imp (rule _ _).mp, fun pairs => pairs.imp (rule _ _).mpr⟩

/-- An entry of the first loop is whole where no return type is left out. -/
theorem recordedSigs_whole (alone : ConventionAlone state view) {c : FuncSigChange}
    (member : c ∈ recordedSigs state view) : c ∈ expectedSigs state view := by
  obtain ⟨func, listed, found, typed, held, ⟨origCC, recorded⟩, carries, convention, returnType⟩ :=
    mem_recordedSigs member
  refine List.mem_filterMap.mpr ⟨func, listed, expectedSig_eq_some.mpr ⟨typed, held, carries, convention, ?_⟩⟩
  rw [returnType]
  split
  · rename_i unrecorded
    rw [if_pos unrecorded] at returnType
    have differs : expectedConvention state c.key func ≠ "" := by
      rw [← convention]
      exact carries.resolve_right (not_not.mpr returnType)
    rw [expectedReturn, unrecorded]
    exact (alone func c.key origCC found typed held recorded unrecorded differs).symm
  · rfl

theorem mem_collectFuncSigs_iff (distinct : DistinctKeys state) (single : SingleDifference state view)
    (alone : ConventionAlone state view) {c : FuncSigChange} :
    c ∈ collectFuncSigs state view ↔ c ∈ expectedSigs state view := by
  have pairs := (expectedSigs_distinct_iff distinct).mpr single
  rw [collectFuncSigs_eq, mem_foldl_queueSig pairs]
  constructor
  · rintro (first | ⟨second, _⟩)
    · exact recordedSigs_whole alone first
    · exact second
  · intro member
    by_cases taken : ∃ before ∈ recordedSigs state view, before.key = c.key
    · obtain ⟨before, first, same⟩ := taken
      rw [← sig_eq_of_key pairs member (recordedSigs_whole alone first) same]
      exact .inl first
    · exact .inr ⟨member, fun before first same => taken ⟨before, first, same⟩⟩

theorem nodup_of_keys {sigs : List FuncSigChange}
    (distinct : sigs.Pairwise fun first second => first.key ≠ second.key) : sigs.Nodup :=
  distinct.imp fun apart same => apart (congrArg FuncSigChange.key same)

/-- The collection is the reference list, up to its order, exactly under these two
conditions. -/
theorem collectFuncSigs_perm_iff (distinct : DistinctKeys state) :
    (collectFuncSigs state view).Perm (expectedSigs state view) ↔
      SingleDifference state view ∧ ConventionAlone state view := by
  have collectedKeys := (@collectFuncSigs_spec state view).distinct
  constructor
  · intro same
    refine ⟨(expectedSigs_distinct_iff distinct).mp (same.pairwise collectedKeys fun apart => Ne.symm apart), ?_⟩
    intro func key origCC found typed held recorded unrecorded differs
    by_contra text
    have whole : ⟨key, expectedConvention state key func, typeText view func.returnType⟩ ∈
        expectedSigs state view := by
      refine List.mem_filterMap.mpr ⟨func, List.mem_of_find?_eq_some found,
        expectedSig_eq_some.mpr ⟨typed, held, .inl differs, rfl, ?_⟩⟩
      simp only [expectedReturn, unrecorded]
    obtain ⟨c, first, keyed⟩ := exists_recordedSig distinct found typed held recorded differs
    obtain ⟨_, _, _, _, _, _, _, _, returnType⟩ := mem_recordedSigs first
    rw [keyed, if_pos unrecorded] at returnType
    have equal := sig_eq_of_key collectedKeys (same.mem_iff.mpr whole) (mem_foldl_of_queued first) keyed
    rw [equal] at returnType
    exact text returnType
  · rintro ⟨single, alone⟩
    refine (List.perm_ext_iff_of_nodup (nodup_of_keys collectedKeys)
      (nodup_of_keys ((expectedSigs_distinct_iff distinct).mpr single))).mpr fun c => ?_
    exact mem_collectFuncSigs_iff distinct single alone

/-! ## The next collection -/

theorem expectedSig_eq_none {func : BNFunction} :
    expectedSig state view func = none ↔
      ∀ key, func.hasUserType = true → state.addrToKey.lookup func.start = some key →
        expectedConvention state key func = "" ∧ expectedReturn state view key func = "" := by
  constructor
  · intro none key typed held
    by_contra carries
    rw [not_and_or] at carries
    have made : expectedSig state view func = some ⟨key, _, _⟩ :=
      expectedSig_eq_some.mpr ⟨typed, held, carries, rfl, rfl⟩
    rw [none] at made
    cases made
  · intro settled
    by_contra some
    obtain ⟨c, made⟩ := Option.ne_none_iff_exists'.mp some
    obtain ⟨typed, held, carries, convention, returnType⟩ := expectedSig_eq_some.mp made
    obtain ⟨noConvention, noReturn⟩ := settled c.key typed held
    rw [convention, returnType, noConvention, noReturn] at carries
    exact carries.elim (· rfl) (· rfl)

/-- Neither loop queues anything exactly when no function differs. -/
theorem collectFuncSigs_eq_nil :
    collectFuncSigs state view = [] ↔ ∀ func ∈ view.functions, expectedSig state view func = none := by
  rw [collectFuncSigs_eq, foldl_queueSig_eq_nil]
  refine ⟨And.right, fun settled => ⟨?_, settled⟩⟩
  rw [List.eq_nil_iff_forall_not_mem]
  intro c member
  obtain ⟨func, listed, _, typed, held, _, carries, convention, returnType⟩ := mem_recordedSigs member
  obtain ⟨noConvention, noReturn⟩ := expectedSig_eq_none.mp (settled func listed) c.key typed held
  rw [noReturn, ite_self] at returnType
  rw [convention, noConvention, returnType] at carries
  exact carries.elim (· rfl) (· rfl)

/-- What one function sent holds of every other function with a user type at its
start, or is not there. -/
def SharedDifference (state : CheckinState) (view : BinaryView) : Prop :=
  ∀ func ∈ view.functions, ∀ c, expectedSig state view func = some c →
    ∀ other ∈ view.functions, other.hasUserType = true → other.start = func.start →
      (c.callingConvention ≠ "" → other.callingConvention.getD "" = "" ∨
        canonicalCCName (other.callingConvention.getD "") = canonicalCCName c.callingConvention) ∧
      (c.returnTypeName ≠ "" → typeText view other.returnType = "" ∨
        canonicalTypeName (typeText view other.returnType) = canonicalTypeName c.returnTypeName)

theorem expectedConvention_recorded {key : Int64} {recorded : String} {func : BNFunction}
    (held : state.funcOriginalCC.lookup key = some recorded) :
    expectedConvention state key func = "" ↔
      func.callingConvention.getD "" = "" ∨
        canonicalCCName (func.callingConvention.getD "") = canonicalCCName recorded := by
  rw [expectedConvention, held]
  by_cases same : canonicalCCName (func.callingConvention.getD "") = canonicalCCName recorded <;> simp [same]

theorem expectedReturn_recorded {key : Int64} {recorded : String} {func : BNFunction}
    (held : state.funcOriginalRetType.lookup key = some recorded) :
    expectedReturn state view key func = "" ↔
      typeText view func.returnType = "" ∨
        canonicalTypeName (typeText view func.returnType) = canonicalTypeName recorded := by
  rw [expectedReturn, held]
  by_cases same : canonicalTypeName (typeText view func.returnType) = canonicalTypeName recorded <;> simp [same]

/-- A part of a sent signature overwrites its record unless it is empty. -/
theorem lookup_sent_part {base : Table Int64 String} (part : FuncSigChange → String) {c : FuncSigChange}
    (sent : c ∈ collectFuncSigs state view) :
    (Table.writeAll base FuncSigChange.key part
      ((collectFuncSigs state view).filter fun other => part other ≠ "")).lookup c.key =
      if part c = "" then base.lookup c.key else some (part c) := by
  have unique {other : FuncSigChange} (member : other ∈ collectFuncSigs state view) (same : other.key = c.key) :
      other = c := sig_eq_of_key collectFuncSigs_spec.distinct sent member same
  split
  · rename_i empty
    refine Table.lookup_writeAll_of_not_mem fun other member same => ?_
    obtain ⟨queued, nonempty⟩ := List.mem_filter.mp member
    rw [unique queued same] at nonempty
    simp [empty] at nonempty
  · rename_i nonempty
    exact Table.lookup_writeAll_of_mem (List.mem_filter.mpr ⟨sent, by simpa using nonempty⟩) fun other member same =>
      congrArg part (unique (List.mem_of_mem_filter member) same)

section After
variable (moved : CheckedIn state view next)
include moved

theorem sent_convention {c : FuncSigChange} (sent : c ∈ collectFuncSigs state view) :
    next.funcOriginalCC.lookup c.key =
      if c.callingConvention = "" then state.funcOriginalCC.lookup c.key else some c.callingConvention := by
  rw [moved.conventions]
  exact lookup_sent_part FuncSigChange.callingConvention sent

theorem sent_return {c : FuncSigChange} (sent : c ∈ collectFuncSigs state view) :
    next.funcOriginalRetType.lookup c.key =
      if c.returnTypeName = "" then state.funcOriginalRetType.lookup c.key else some c.returnTypeName := by
  rw [moved.returns]
  exact lookup_sent_part FuncSigChange.returnTypeName sent

theorem unsent_sig {key : Int64} (unsent : ∀ c ∈ collectFuncSigs state view, c.key ≠ key) (func : BNFunction) :
    expectedConvention next key func = expectedConvention state key func ∧
      expectedReturn next view key func = expectedReturn state view key func := by
  have convention : next.funcOriginalCC.lookup key = state.funcOriginalCC.lookup key := by
    rw [moved.conventions]
    exact Table.lookup_writeAll_of_not_mem fun c member => unsent c (List.mem_of_mem_filter member)
  have returnType : next.funcOriginalRetType.lookup key = state.funcOriginalRetType.lookup key := by
    rw [moved.returns]
    exact Table.lookup_writeAll_of_not_mem fun c member => unsent c (List.mem_of_mem_filter member)
  simp only [expectedConvention, expectedReturn, convention, returnType, and_self]

/-- With the whole list sent, what is left to send at a start is what its functions
do not share. -/
theorem sigs_settled_iff (distinct : DistinctKeys state) (single : SingleDifference state view)
    (alone : ConventionAlone state view) :
    collectFuncSigs next view = [] ↔ SharedDifference state view := by
  have pairs := (expectedSigs_distinct_iff distinct).mpr single
  have sentIff {c : FuncSigChange} := @mem_collectFuncSigs_iff state view distinct single alone c
  rw [collectFuncSigs_eq_nil]
  simp only [expectedSig_eq_none, moved.keys]
  constructor
  · intro settled func listed c made other otherListed typed sameStart
    obtain ⟨_, held, _⟩ := expectedSig_eq_some.mp made
    have sent := sentIff.mpr (List.mem_filterMap.mpr ⟨func, listed, made⟩)
    obtain ⟨convention, returnType⟩ := settled other otherListed c.key typed (by rw [sameStart, held])
    refine ⟨fun nonempty => ?_, fun nonempty => ?_⟩
    · exact (expectedConvention_recorded (by rw [sent_convention moved sent, if_neg nonempty])).mp convention
    · exact (expectedReturn_recorded (by rw [sent_return moved sent, if_neg nonempty])).mp returnType
  · intro shared func listed key typed held
    by_cases sent : ∃ c ∈ collectFuncSigs state view, c.key = key
    · obtain ⟨c, sent, rfl⟩ := sent
      obtain ⟨source, sourceListed, made⟩ := List.mem_filterMap.mp (sentIff.mp sent)
      obtain ⟨_, sourceHeld, _⟩ := expectedSig_eq_some.mp made
      obtain ⟨convention, returnType⟩ := shared source sourceListed c made func listed typed
        (distinct _ _ _ held sourceHeld)
      -- An own entry of the function is this one, so a field it lacks did not differ.
      have own : expectedSig state view func = none ∨ expectedSig state view func = some c := by
        cases ownMade : expectedSig state view func with
        | none => exact .inl rfl
        | some d =>
          obtain ⟨_, ownHeld, _⟩ := expectedSig_eq_some.mp ownMade
          rw [held, Option.some.injEq] at ownHeld
          refine .inr (congrArg some ?_)
          exact sig_eq_of_key pairs (sentIff.mp sent) (List.mem_filterMap.mpr ⟨func, listed, ownMade⟩) ownHeld.symm
      have same : c.callingConvention = "" → expectedConvention state c.key func = "" := by
        intro empty
        rcases own with none | some
        · exact (expectedSig_eq_none.mp none c.key typed held).1
        · rw [← (expectedSig_eq_some.mp some).2.2.2.1, empty]
      have sameReturn : c.returnTypeName = "" → expectedReturn state view c.key func = "" := by
        intro empty
        rcases own with none | some
        · exact (expectedSig_eq_none.mp none c.key typed held).2
        · rw [← (expectedSig_eq_some.mp some).2.2.2.2, empty]
      have conventionAfter := sent_convention moved sent
      have returnAfter := sent_return moved sent
      refine ⟨?_, ?_⟩
      · by_cases empty : c.callingConvention = ""
        · rw [if_pos empty] at conventionAfter
          rw [expectedConvention, conventionAfter]
          exact same empty
        · rw [if_neg empty] at conventionAfter
          exact (expectedConvention_recorded conventionAfter).mpr (convention empty)
      · by_cases empty : c.returnTypeName = ""
        · rw [if_pos empty] at returnAfter
          rw [expectedReturn, returnAfter]
          exact sameReturn empty
        · rw [if_neg empty] at returnAfter
          exact (expectedReturn_recorded returnAfter).mpr (returnType empty)
    · have unsent : ∀ c ∈ collectFuncSigs state view, c.key ≠ key := by simpa using sent
      obtain ⟨sameConvention, sameReturn⟩ := unsent_sig moved unsent func
      rw [sameConvention, sameReturn]
      refine expectedSig_eq_none.mp ?_ key typed held
      by_contra some
      obtain ⟨c, made⟩ := Option.ne_none_iff_exists'.mp some
      obtain ⟨_, ownHeld, _⟩ := expectedSig_eq_some.mp made
      rw [held, Option.some.injEq] at ownHeld
      exact unsent c (sentIff.mpr (List.mem_filterMap.mpr ⟨func, listed, made⟩)) ownHeld.symm

end After

/-- The signatures are sent whole and settle. -/
structure SignaturesWhole (state : CheckinState) (view : BinaryView) : Prop where
  single : SingleDifference state view
  alone : ConventionAlone state view
  shared : SharedDifference state view

/-- The collection is the reference list and the next one is empty exactly when the
signatures can be sent whole. -/
theorem signatures_complete_iff (conn : GhidraConnection) (view : BinaryView) (comment : String)
    (send : Json → Except String Json) (distinct : DistinctKeys conn.checkinState)
    (succeeded : (conn.checkin view (conn.checkinState.collectCheckinChanges view) comment send).1.success =
      true) :
    ((conn.checkinState.collectCheckinChanges view).funcSigChanges.Perm (expectedSigs conn.checkinState view) ∧
        (collectedAgain conn view comment send).funcSigChanges = []) ↔
      SignaturesWhole conn.checkinState view := by
  have moved := checkedIn_of_success succeeded
  have collected : (conn.checkinState.collectCheckinChanges view).funcSigChanges =
      collectFuncSigs conn.checkinState view := by
    rw [collectCheckinChanges_of_imported moved.imported]
  rw [collected, collectFuncSigs_perm_iff distinct, collectedAgain, moved.collected]
  constructor
  · rintro ⟨⟨single, alone⟩, settled⟩
    exact ⟨single, alone, (sigs_settled_iff moved distinct single alone).mp settled⟩
  · rintro ⟨single, alone, shared⟩
    exact ⟨⟨single, alone⟩, (sigs_settled_iff moved distinct single alone).mpr shared⟩

/-- A function somebody gave another convention and a return type. -/
def retypedView : BinaryView :=
  { functions := [
      { start := 0x401000, hasUserType := true, callingConvention := some "fastcall"
        returnType := some (.integer 4 true), platformConvention := some "cdecl" }] }

/-- Ghidra recorded its convention, and this return type. -/
def signedState (returnType : Option String) : CheckinState :=
  { addrToKey := Table.set ∅ 0x401000 5
    funcOriginalCC := Table.set ∅ 5 "__stdcall"
    funcOriginalRetType := returnType.elim ∅ (Table.set ∅ 5) }

/-- With both baselines a change of both is one entry, and it settles. -/
theorem recorded_signature_sent_whole :
    let conn := connectionWith (signedState (some "void"))
    let send := replyApplied [("func_sigs", 1)]
    expectedSigs conn.checkinState retypedView = [⟨5, "fastcall", "int32_t"⟩] ∧
      (conn.checkinState.collectCheckinChanges retypedView).funcSigChanges.Perm
        (expectedSigs conn.checkinState retypedView) ∧
      (collectedAgain conn retypedView "note" send).funcSigChanges = [] := by
  have only : ∀ func ∈ retypedView.functions,
      expectedSig (connectionWith (signedState (some "void"))).checkinState retypedView func =
        some ⟨5, "fastcall", "int32_t"⟩ ∧
      func.callingConvention.getD "" = "fastcall" ∧ typeText retypedView func.returnType = "int32_t" := by
    decide +kernel
  refine ⟨by decide +kernel, (signatures_complete_iff _ _ _ _ ?_ (by decide +kernel)).mpr ⟨?_, ?_, ?_⟩⟩
  · intro first second key held otherHeld
    simp only [connectionWith, signedState, Table.lookup_set, AList.lookup_empty] at held otherHeld
    split at held
    · split at otherHeld
      · rename_i here there
        rw [here, there]
      · cases otherHeld
    · cases held
  · exact List.pairwise_singleton _ _
  · intro func key origCC _ _ _ recorded unrecorded
    simp only [connectionWith, signedState, Option.elim_some, Table.lookup_set, AList.lookup_empty]
      at recorded unrecorded
    split at recorded
    · rename_i here
      simp [here] at unrecorded
    · cases recorded
  · intro func listed c made other otherListed _ _
    obtain ⟨_, convention, returnType⟩ := only other otherListed
    rw [(only func listed).1, Option.some.injEq] at made
    rw [← made, convention, returnType]
    exact ⟨fun _ => .inr rfl, fun _ => .inr rfl⟩

/-- With a convention recorded and no return type, the first check-in sends the
convention without the return type, and the second sends the return type. -/
theorem signature_split_over_two_checkins :
    let conn := connectionWith (signedState none)
    let send := replyApplied [("func_sigs", 1)]
    let attempt := conn.checkin retypedView (conn.checkinState.collectCheckinChanges retypedView) "note" send
    attempt.1.success = true ∧ attempt.1.warned = [] ∧
      expectedSigs conn.checkinState retypedView = [⟨5, "fastcall", "int32_t"⟩] ∧
      (conn.checkinState.collectCheckinChanges retypedView).funcSigChanges = [⟨5, "fastcall", ""⟩] ∧
      (collectedAgain conn retypedView "note" send).funcSigChanges = [⟨5, "", "int32_t"⟩] := by
  decide +kernel

end GhidraBridge.SignatureDiff
