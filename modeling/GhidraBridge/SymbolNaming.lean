import GhidraBridge.BaselineMoves
import GhidraBridge.UploadAnalysis

/-! Which symbols of a view somebody named. The check-in, the import and the upload each
have a test of their own for a name nobody chose, and the check-in asks only the first
symbol it meets at an address. -/
namespace GhidraBridge.SymbolNaming
open Lib CheckinState UploadAnalysis

/-! ## The three tests -/

section Tests
variable {name : String}

/-- The three tests give one answer. -/
def TestsAgree (name : String) : Prop :=
  isAutoGeneratedSymbolName name = isAutoGenName name ∧ isAutoGenName name = isDefault name

def functionStarts : List String := ["sub_", "FUN_", "j_"]

def dataStarts : List String := ["off_", "unk_", "data_"]

/-- An address stands behind `start`. -/
def namesAddress (name start : String) : Bool := hexSuffix name.toList start.toList.length

/-- The upload asks for no address behind the starts of functions and knows none of the
starts of data. -/
def SettledName (name : String) : Prop :=
  (∀ start ∈ functionStarts, startsWith name start = true → namesAddress name start = true) ∧
    ∀ start ∈ dataStarts, startsWith name start = true → namesAddress name start = false

private def defaultOf (name start : String) : Bool := startsWith name start && namesAddress name start

private theorem head_of_startsWith {start : String} (some : start ≠ "") (starts : startsWith name start = true) :
    name.toList.head? = start.toList.head? := by
  rw [startsWith, List.isPrefixOf_iff_prefix] at starts
  obtain ⟨tail, whole⟩ := starts
  rw [← whole, List.head?_append_of_ne_nil]
  simpa using some

/-- No name starts in two of the six ways. -/
private theorem start_unique {start other : String} (one : start ∈ functionStarts ++ dataStarts)
    (two : other ∈ functionStarts ++ dataStarts) (starts : startsWith name start = true)
    (otherStarts : startsWith name other = true) : start = other := by
  have filled : ∀ text ∈ functionStarts ++ dataStarts, text ≠ "" := by decide
  have apart : ∀ a ∈ functionStarts ++ dataStarts, ∀ b ∈ functionStarts ++ dataStarts,
      a.toList.head? = b.toList.head? → a = b := by decide
  apply apart start one other two
  rw [← head_of_startsWith (filled start one) starts, head_of_startsWith (filled other two) otherStarts]

/-- Of a list of starts only the one the name has counts. -/
private theorem any_defaultOf {start : String} {starts : List String}
    (known : ∀ text ∈ starts, text ∈ functionStarts ++ dataStarts) (member : start ∈ starts)
    (here : startsWith name start = true) : starts.any (defaultOf name) = namesAddress name start := by
  rw [Bool.eq_iff_iff, List.any_eq_true]
  constructor
  · rintro ⟨other, listed, found⟩
    obtain ⟨there, address⟩ := Bool.and_eq_true_iff.mp found
    rw [start_unique (known start member) (known other listed) here there]
    exact address
  · intro address
    exact ⟨start, member, Bool.and_eq_true_iff.mpr ⟨here, address⟩⟩

private def importStarts : List String := ["sub_", "FUN_", "off_", "unk_", "j_"]

private theorem isAutoGenName_eq : isAutoGenName name = importStarts.any (defaultOf name) := by
  simp [isAutoGenName, importStarts, defaultOf, namesAddress, Bool.or_assoc]

private theorem isAutoGenerated_of_defaultOf {start : String} (known : start ∈ functionStarts ++ dataStarts)
    (found : defaultOf name start = true) : isAutoGeneratedSymbolName name = true := by
  simp only [functionStarts, dataStarts, List.cons_append, List.nil_append, List.mem_cons, List.not_mem_nil,
    or_false] at known
  rw [isAutoGeneratedSymbolName, isAutoGeneratedChars.eq_def]
  rcases known with rfl | rfl | rfl | rfl | rfl | rfl <;>
    simp_all [defaultOf, namesAddress, startsWith]

/-- A name that is no thunk's is decided by its own start. -/
private theorem isAutoGenerated_of_no_thunk (plain : startsWith name "j_" = false) :
    isAutoGeneratedSymbolName name = (isAutoGenName name || defaultOf name "data_") := by
  rw [isAutoGeneratedSymbolName, isAutoGeneratedChars.eq_def, isAutoGenName, defaultOf]
  split
  · rename_i target spelled
    simp [startsWith, spelled] at plain
  · simp only [startsWith, namesAddress] at plain ⊢
    rw [plain]
    simp [Bool.or_assoc]

/-- The three tests agree on a name exactly when an address stands behind the start of a
function and none behind the start of data. -/
theorem tests_agree_iff (given : name ≠ "") : TestsAgree name ↔ SettledName name := by
  by_cases function : ∃ start ∈ functionStarts, startsWith name start = true
  · obtain ⟨start, member, starts⟩ := function
    have known : start ∈ functionStarts ++ dataStarts := List.mem_append_left _ member
    have imports : ∀ text ∈ functionStarts, text ∈ importStarts := by decide
    have imported : isAutoGenName name = namesAddress name start := by
      rw [isAutoGenName_eq, any_defaultOf (by decide) (imports start member) starts]
    have uploaded : isDefault name = true := by
      simp only [functionStarts, List.mem_cons, List.not_mem_nil, or_false] at member
      rcases member with rfl | rfl | rfl <;> simp [isDefault, starts]
    constructor
    · rintro ⟨-, same⟩
      rw [imported, uploaded] at same
      constructor
      · intro other otherMember otherStarts
        rw [start_unique (List.mem_append_left _ otherMember) known otherStarts starts]
        exact same
      · intro other otherMember otherStarts
        have disjoint : ∀ text ∈ dataStarts, text ∉ functionStarts := by decide
        rw [← start_unique (List.mem_append_right _ otherMember) known otherStarts starts] at member
        exact absurd member (disjoint other otherMember)
    · rintro ⟨addressed, -⟩
      have address := addressed start member starts
      have collected : isAutoGeneratedSymbolName name = true :=
        isAutoGenerated_of_defaultOf known (Bool.and_eq_true_iff.mpr ⟨starts, address⟩)
      exact ⟨by rw [collected, imported, address], by rw [imported, address, uploaded]⟩
  · have elsewhere : ∀ start ∈ functionStarts, startsWith name start = false := by
      intro start member
      rw [← Bool.not_eq_true]
      exact fun starts => function ⟨start, member, starts⟩
    have uploaded : isDefault name = false := by
      simp [isDefault, given, elsewhere "sub_" (by decide), elsewhere "FUN_" (by decide),
        elsewhere "j_" (by decide)]
    have imported : isAutoGenName name = (defaultOf name "off_" || defaultOf name "unk_") := by
      simp [isAutoGenName, defaultOf, namesAddress, elsewhere "sub_" (by decide), elsewhere "FUN_" (by decide),
        elsewhere "j_" (by decide)]
    rw [TestsAgree, isAutoGenerated_of_no_thunk (elsewhere "j_" (by decide)), imported, uploaded]
    have noData : (∀ start ∈ dataStarts, startsWith name start = true → namesAddress name start = false) ↔
        dataStarts.any (defaultOf name) = false := by
      simp [defaultOf]
    rw [SettledName, noData]
    constructor
    · rintro ⟨known, unknown⟩
      rw [unknown, Bool.false_or] at known
      refine ⟨fun start member starts => absurd starts (by simp [elsewhere start member]), ?_⟩
      simpa [dataStarts, known] using unknown
    · rintro ⟨-, none⟩
      simp only [dataStarts, List.any_cons, List.any_nil, Bool.or_eq_false_iff] at none
      simp [none]

theorem tests_agree_on_thunk : "j_401000" ≠ "" ∧ (TestsAgree "j_401000" ↔ SettledName "j_401000") :=
  ⟨by decide, tests_agree_iff (by decide)⟩

/-- The name the import's comment gives for one that somebody chose is sent by the check-in
and held back by the upload. -/
theorem upload_holds_back_chosen_name :
    "sub_test123" ≠ "" ∧ isAutoGeneratedSymbolName "sub_test123" = false ∧ isAutoGenName "sub_test123" = false ∧
      isDefault "sub_test123" = true ∧ ¬ TestsAgree "sub_test123" := by
  refine ⟨by decide, by decide, by decide, by decide, ?_⟩
  rintro ⟨-, same⟩
  exact absurd same (by decide)

end Tests

/-! ## New symbols -/

section NewSymbols
variable {state : CheckinState} {view : BinaryView} {addr : UInt64}

/-- The view as it is when `GetSymbols` returns its symbols in another order. -/
def listed (view : BinaryView) (order : List BNSymbol) : BinaryView := { view with symbols := order }

/-- The addresses the preview has new symbols for. -/
def newAddresses (state : CheckinState) (view : BinaryView) : List UInt64 :=
  (collectCheckinChanges state view).newSymbols.map NewSymbol.addr

/-- A named symbol at an address Ghidra has no record of, other than the name last sent. -/
structure Eligible (state : CheckinState) (sym : BNSymbol) : Prop where
  unkeyed : sym.addr ∉ state.addrToKey
  kind : sym.type = .function ∨ sym.type = .data ∨ sym.type = .localLabel
  named : sym.name ≠ ""
  chosen : isAutoGeneratedSymbolName sym.name = false
  unsent : state.addrToOriginalName.lookup sym.addr ≠ some sym.name

/-- The addresses do not depend on the order of the symbols, and none that has an eligible
symbol is missing. -/
def OrderFree (state : CheckinState) (view : BinaryView) : Prop :=
  (∀ order, order.Perm view.symbols → ∀ addr, addr ∈ newAddresses state (listed view order) ↔
    addr ∈ newAddresses state view) ∧
  ∀ sym ∈ view.symbols, Eligible state sym → sym.addr ∈ newAddresses state view

/-- Where one symbol of an address is eligible an item is imported and all symbols of the
address are eligible. -/
def EligibleTogether (state : CheckinState) (symbols : List BNSymbol) : Prop :=
  ∀ sym ∈ symbols, Eligible state sym →
    state.checkinItem ≠ "" ∧ ∀ other ∈ symbols, other.addr = sym.addr → Eligible state other

theorem eligible_iff (sym : BNSymbol) :
    Eligible state sym ↔ sym.addr ∉ state.addrToKey ∧ ∃ s, newSymbolFor state sym = some s := by
  constructor
  · rintro ⟨unkeyed, kind, named, chosen, unsent⟩
    have known : ¬ (sym.type ≠ .function ∧ sym.type ≠ .data ∧ sym.type ≠ .localLabel) := by
      rcases kind with same | same | same <;> simp [same]
    exact ⟨unkeyed, _, by rw [newSymbolFor, if_neg known, if_neg (by simp [named, chosen]), if_neg unsent]⟩
  · rintro ⟨unkeyed, s, made⟩
    rw [newSymbolFor] at made
    split at made
    · cases made
    rename_i known
    split at made
    · cases made
    rename_i chosen
    split at made
    · cases made
    rename_i unsent
    obtain ⟨named, notAuto⟩ := not_or.mp chosen
    exact ⟨unkeyed, by tauto, named, by simpa using notAuto, unsent⟩

/-- An address is reported when the first symbol met there is eligible. -/
theorem mem_newAddresses :
    addr ∈ newAddresses state view ↔
      state.checkinItem ≠ "" ∧
        ∃ sym, view.symbols.find? (fun sym => sym.addr = addr) = some sym ∧ Eligible state sym := by
  by_cases missing : state.checkinItem = ""
  · simp [newAddresses, collectCheckinChanges, missing]
  have collected : (collectCheckinChanges state view).newSymbols = collectNewSymbols state view := by
    rw [collectCheckinChanges, if_neg missing]
  rw [newAddresses, collected, List.mem_map]
  constructor
  · rintro ⟨s, sent, rfl⟩
    obtain ⟨unkeyed, -, sym, found, made⟩ := BaselineMoves.mem_newSymbolsFrom.mp sent
    have place : sym.addr = s.addr := by simpa using List.find?_some found
    exact ⟨missing, sym, found, (eligible_iff sym).mpr ⟨place ▸ unkeyed, s, made⟩⟩
  · rintro ⟨-, sym, found, eligible⟩
    have place : sym.addr = addr := by simpa using List.find?_some found
    obtain ⟨unkeyed, s, made⟩ := (eligible_iff sym).mp eligible
    have same : s.addr = addr := (BaselineMoves.newSymbolFor_eq_some made).1.trans place
    subst same
    exact ⟨s, BaselineMoves.mem_newSymbolsFrom.mpr ⟨place ▸ unkeyed, List.not_mem_nil, sym, found, made⟩, rfl⟩

/-- Where eligibility goes by the address, the addresses are those of the eligible symbols. -/
theorem mem_newAddresses_of_together (together : EligibleTogether state view.symbols) :
    addr ∈ newAddresses state view ↔ ∃ sym ∈ view.symbols, sym.addr = addr ∧ Eligible state sym := by
  rw [mem_newAddresses]
  constructor
  · rintro ⟨-, sym, found, eligible⟩
    exact ⟨sym, List.mem_of_find?_eq_some found, by simpa using List.find?_some found, eligible⟩
  · rintro ⟨sym, member, rfl, eligible⟩
    obtain ⟨imported, others⟩ := together sym member eligible
    obtain ⟨first, found⟩ := Option.isSome_iff_exists.mp
      (List.find?_isSome.mpr ⟨sym, member, by simp⟩ : (view.symbols.find? fun s => s.addr = sym.addr).isSome)
    have place : first.addr = sym.addr := by simpa using List.find?_some found
    exact ⟨imported, first, found, others first (List.mem_of_find?_eq_some found) place⟩

/-- The new symbols do not depend on the order exactly when no address holds an eligible
symbol and an ineligible one. -/
theorem order_free_iff : OrderFree state view ↔ EligibleTogether state view.symbols := by
  constructor
  · rintro ⟨free, complete⟩ sym member eligible
    have reported := complete sym member eligible
    refine ⟨(mem_newAddresses.mp reported).1, fun other otherMember place => ?_⟩
    -- With the other symbol in front the address is decided by it.
    have inFront := (free (other :: view.symbols.erase other) (List.perm_cons_erase otherMember).symm sym.addr).mpr
      reported
    obtain ⟨-, first, found, leading⟩ := mem_newAddresses.mp inFront
    simp only [listed, List.find?_cons, place, decide_true, Option.some.injEq] at found
    exact found ▸ leading
  · intro together
    constructor
    · intro order permuted there
      have members (sym : BNSymbol) : sym ∈ order ↔ sym ∈ view.symbols := permuted.mem_iff
      have reordered : EligibleTogether state (listed view order).symbols := by
        intro sym member eligible
        obtain ⟨imported, others⟩ := together sym ((members sym).mp member) eligible
        exact ⟨imported, fun other otherMember => others other ((members other).mp otherMember)⟩
      rw [mem_newAddresses_of_together reordered, mem_newAddresses_of_together together]
      simp only [listed, members]
    · intro sym member eligible
      exact (mem_newAddresses_of_together together).mpr ⟨sym, member, rfl, eligible⟩

private def importedState : CheckinState := { checkinItem := "prog" }

private def renamedStub : BinaryView :=
  { symbols := [⟨.importedFunction, "printf", 0x1000⟩, ⟨.function, "log_line", 0x1000⟩] }

/-- An import symbol listed first hides the name somebody gave the function at its address;
listed last it does not. -/
theorem import_symbol_hides_function_name :
    newAddresses importedState renamedStub = [] ∧
      newAddresses importedState (listed renamedStub renamedStub.symbols.reverse) = [0x1000] ∧
      ¬ OrderFree importedState renamedStub := by
  have first : newAddresses importedState renamedStub = [] := by decide
  have last : newAddresses importedState (listed renamedStub renamedStub.symbols.reverse) = [0x1000] := by decide
  refine ⟨first, last, ?_⟩
  rintro ⟨free, -⟩
  have both := free renamedStub.symbols.reverse (List.reverse_perm _) 0x1000
  rw [first, last] at both
  simp at both

end NewSymbols
end GhidraBridge.SymbolNaming
