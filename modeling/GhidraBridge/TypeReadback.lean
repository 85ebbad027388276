import GhidraBridge.TypeNames

/-! How a type name reads back. A member's type name is resolved into a Binary
Ninja type at import and compared, through its rendering, with the same name at
check-in. `readsBack` says on the name alone when the two meet: which names are
known while the member is resolved is the only thing it asks of the view. -/
namespace GhidraBridge
open Lib.Scan

/-! ## The canonical form of a suffixed name -/

theorem canonicalChars_eq (raw : List Char) :
    canonicalChars raw =
      if trim raw = [] then []
      else
        match suffixed? (trim raw) with
        | some (base, suffix) => canonicalChars base ++ suffix
        | none => foldAlias (stripKeywords (trim raw)) := by
  rw [canonicalChars]
  split
  · rfl
  · split <;> simp_all

/-- Only the trimmed text matters. -/
theorem canonicalChars_congr {first second : List Char} (same : trim first = trim second) :
    canonicalChars first = canonicalChars second := by
  rw [canonicalChars_eq first, canonicalChars_eq second, same]

@[simp] theorem canonicalChars_nil : canonicalChars [] = [] := by
  rw [canonicalChars_eq]
  rfl

@[simp] theorem canonicalChars_rtrim (name : List Char) : canonicalChars (rtrim name) = canonicalChars name :=
  canonicalChars_congr (trim_rtrim name)

theorem canonicalChars_of_suffixed {text suffix : List Char} (first last : Char)
    (starts : suffix.head? = some first) (ends : suffix.getLast? = some last)
    (solid : isBlank first = false) (solidEnd : isBlank last = false)
    (cut : suffixed? (text.dropWhile isBlank ++ suffix) = some (text.dropWhile isBlank, suffix)) :
    canonicalChars (text ++ suffix) = canonicalChars text ++ suffix := by
  have trimmed : trim (text ++ suffix) = _ := trim_append starts ends solid solidEnd
  have nonempty : text.dropWhile isBlank ++ suffix ≠ [] := by
    intro empty
    simp [(List.append_eq_nil_iff.mp empty).2] at starts
  rw [canonicalChars_eq, trimmed, if_neg nonempty, cut]
  change canonicalChars (text.dropWhile isBlank) ++ suffix = _
  rw [canonicalChars_congr (trim_dropWhile text)]

/-- A star stays behind the canonical pointee. -/
theorem canonicalChars_star (text : List Char) : canonicalChars (text ++ ['*']) = canonicalChars text ++ ['*'] := by
  apply canonicalChars_of_suffixed '*' '*' rfl rfl rfl rfl
  unfold suffixed?
  simp

/-- A bracket stays as it is spelled behind the canonical element. -/
theorem canonicalChars_bracket (text : List Char) {count : List Char} (plain : '[' ∉ count) :
    canonicalChars (text ++ '[' :: (count ++ [']'])) = canonicalChars text ++ '[' :: (count ++ [']']) := by
  have ends : ('[' :: (count ++ [']'])).getLast? = some ']' := by
    rw [← List.cons_append, List.getLast?_append]
    rfl
  apply canonicalChars_of_suffixed '[' ']' rfl ends rfl rfl
  have absent : '[' ∉ count ++ [']'] := by simp [plain]
  have last : (text.dropWhile isBlank ++ '[' :: (count ++ [']'])).getLast? = some ']' := by
    rw [List.getLast?_append, ends]
    rfl
  unfold suffixed?
  rw [last, if_neg (by decide), if_pos rfl, splitLast_append _ absent]
  rfl

theorem foldAlias_ne_nil {text : List Char} (nonempty : text ≠ []) : foldAlias text ≠ [] := by
  unfold foldAlias
  cases found : aliases.lookup (String.ofList text) with
  | none => simpa using nonempty
  | some folded =>
    have table : ∀ entry ∈ aliases, entry.2.toList ≠ [] := by decide
    obtain ⟨before, after, shape, _⟩ := List.lookup_eq_some_iff.mp found
    exact table (String.ofList text, folded) (by simp [shape])

/-- A fixed-width unsigned integer has a canonical spelling, whatever its width. -/
theorem canonicalChars_uint_ne_nil (digits : List Char) :
    canonicalChars ("uint".toList ++ digits ++ "_t".toList) ≠ [] := by
  have ends : ("uint".toList ++ digits ++ "_t".toList).getLast? = some 't' := by
    rw [List.getLast?_append]
    rfl
  have trimmed : trim ("uint".toList ++ digits ++ "_t".toList) = "uint".toList ++ digits ++ "_t".toList :=
    trim_of_solid rfl ends rfl rfl
  have plain : stripKeywords ("uint".toList ++ digits ++ "_t".toList) = "uint".toList ++ digits ++ "_t".toList := by
    have round : stripRound ("uint".toList ++ digits ++ "_t".toList) = "uint".toList ++ digits ++ "_t".toList := rfl
    rw [stripKeywords, round, if_neg (lt_irrefl _)]
  have nonempty : "uint".toList ++ digits ++ "_t".toList ≠ [] := by simp
  have whole : suffixed? ("uint".toList ++ digits ++ "_t".toList) = none := by
    rw [suffixed?, ends, if_neg (by decide), if_neg (by decide)]
  rw [canonicalChars_eq, trimmed, if_neg nonempty, whole, plain]
  exact foldAlias_ne_nil nonempty

/-! ## Cutting a name as the resolver does -/

theorem pointee_canonical (found : pointee? name = some base) :
    canonicalChars name = canonicalChars base ++ ['*'] := by
  unfold pointee? at found
  split at found
  · rename_i star
    cases found
    have cut := (List.dropLast_append_getLast? '*' star).symm
    rw [← canonicalChars_rtrim name, cut, canonicalChars_star]
    simp
  · cases found

/-- What stands behind the last opening bracket of a closed name is a count and the
closing one. -/
theorem count_of_closed {before after : List Char} (closed : (before ++ '[' :: after).getLast? = some ']')
    (absent : '[' ∉ after) : '[' ∉ after.dropLast ∧ after.dropLast ++ [']'] = after := by
  have last : after.getLast? = some ']' := by
    rw [List.getLast?_append] at closed
    cases after with
    | nil => simp at closed
    | cons c rest => simpa using closed
  exact ⟨fun member => absent ((List.dropLast_sublist after).mem member), List.dropLast_append_getLast? ']' last⟩

theorem element_canonical (found : element? name = some (elem, countStr)) :
    '[' ∉ countStr ∧ canonicalChars name = canonicalChars elem ++ '[' :: (countStr ++ [']']) := by
  unfold element? at found
  split at found
  · rename_i closed
    simp only [Option.map_eq_some_iff, Prod.mk.injEq, Prod.exists] at found
    obtain ⟨before, after, cut, rfl, rfl⟩ := found
    obtain ⟨rfl, absent⟩ := splitLast_eq_some.mp cut
    obtain ⟨plain, shape⟩ := count_of_closed closed absent
    refine ⟨plain, ?_⟩
    rw [canonicalChars_rtrim, ← canonicalChars_bracket before plain, shape]
  · cases found

theorem resolveChars_eq (view : BinaryView) (name : List Char) (hintSize : Int32) :
    resolveChars view name hintSize =
      if name = [] then none
      else
        match pointee? name with
        | some base =>
          some (.pointer view.addressSize
            ((if base = [] then some .void else resolveChars view base 0).getD .void))
        | none =>
          ((element? name).bind fun parts =>
            if 0 < (stoull parts.2).getD 0 ∧ parts.1 ≠ [] then
              (resolveChars view parts.1 0).map fun inner => .array inner ((stoull parts.2).getD 0)
            else none).or <|
            (view.getTypeByName (String.ofList name)).or <|
              (primitive? (String.ofList name)).or (hinted hintSize) := by
  rw [resolveChars]
  split
  · rfl
  · split
    · simp_all
    · split <;> simp_all

/-! ## Reading back -/

/-- The name resolves without a size hint, when exactly the `known` names are
types of the view. -/
def resolvable (known : String → Bool) (name : List Char) : Bool :=
  name ≠ [] &&
    ((pointee? name).isSome ||
      (match _array : element? name with
        | some (elem, countStr) =>
          decide (0 < (stoull countStr).getD 0) && elem ≠ [] && resolvable known elem
        | none => false) ||
      known (String.ofList name) || (primitive? (String.ofList name)).isSome)
termination_by name.length
decreasing_by exact element_shorter _array

/-- The element name and count text of a name that resolves as an array. -/
def countedElement? (known : String → Bool) (name : List Char) : Option (List Char × List Char) :=
  (element? name).filter fun parts =>
    decide (0 < (stoull parts.2).getD 0) && parts.1 ≠ [] && resolvable known parts.1

/-- The name's type is rendered with the name's own canonical form. A pointer
needs a base, an array a decimal count and a resolvable element; a known name
meets its rendering behind the keyword, a primitive always does, and any other
name only where it spells the fallback. -/
def readsBack (known : String → Bool) (keyword : String → Option Keyword) (fallback : List Char)
    (name : List Char) : Bool :=
  name ≠ [] &&
    match _pointer : pointee? name with
    | some base => base ≠ [] && readsBack known keyword "void".toList base
    | none =>
      match _array : countedElement? known name with
      | some (elem, countStr) =>
        countStr = (toString ((stoull countStr).getD 0)).toList &&
          readsBack known keyword "void".toList elem
      | none =>
        if known (String.ofList name) then
          canonicalChars ((keyword (String.ofList name)).elim "" Keyword.text ++ String.ofList name).toList =
            canonicalChars name
        else (primitive? (String.ofList name)).isSome || canonicalChars name = fallback
termination_by name.length
decreasing_by
  · exact pointee_shorter _pointer
  · exact element_shorter (Option.eq_some_of_filter_eq_some _array)

theorem resolvable_eq (known : String → Bool) (name : List Char) :
    resolvable known name =
      (name ≠ [] &&
        ((pointee? name).isSome ||
          (match element? name with
            | some (elem, countStr) =>
              decide (0 < (stoull countStr).getD 0) && elem ≠ [] && resolvable known elem
            | none => false) ||
          known (String.ofList name) || (primitive? (String.ofList name)).isSome)) := by
  rw [resolvable]
  split <;> simp_all

theorem readsBack_eq (known : String → Bool) (keyword : String → Option Keyword) (fallback name : List Char) :
    readsBack known keyword fallback name =
      (name ≠ [] &&
        match pointee? name with
        | some base => base ≠ [] && readsBack known keyword "void".toList base
        | none =>
          match countedElement? known name with
          | some (elem, countStr) =>
            countStr = (toString ((stoull countStr).getD 0)).toList &&
              readsBack known keyword "void".toList elem
          | none =>
            if known (String.ofList name) then
              canonicalChars ((keyword (String.ofList name)).elim "" Keyword.text ++ String.ofList name).toList =
                canonicalChars name
            else (primitive? (String.ofList name)).isSome || canonicalChars name = fallback) := by
  rw [readsBack]
  congr 1
  split
  · simp_all
  · split <;> simp_all

/-- The names a view has types for. -/
def BinaryView.knows (view : BinaryView) (name : String) : Bool := decide (name ∈ view.types)

theorem getTypeByName_isSome (view : BinaryView) (name : String) :
    (view.getTypeByName name).isSome = view.knows name := by
  simp only [BinaryView.getTypeByName, BinaryView.knows, Option.isSome_map]
  cases found : view.types.lookup name with
  | none => simp [AList.lookup_eq_none.mp found]
  | some registered => simp [AList.lookup_isSome.mp (by simp [found] : (view.types.lookup name).isSome = true)]

theorem hinted_zero : hinted 0 = none := by decide

/-- Without a hint a name resolves exactly when it is resolvable. -/
theorem resolveChars_isSome (view : BinaryView) (name : List Char) :
    (resolveChars view name 0).isSome = resolvable view.knows name := by
  induction length : name.length using Nat.strongRecOn generalizing name with
  | _ n ih =>
    subst length
    rw [resolveChars_eq, resolvable_eq]
    by_cases empty : name = []
    · simp [empty]
    · rw [if_neg empty]
      cases pointer : pointee? name with
      | some base => simp [empty]
      | none =>
        cases array : element? name with
        | none => simp [empty, hinted_zero, getTypeByName_isSome, Option.isSome_or]
        | some parts =>
          obtain ⟨elem, countStr⟩ := parts
          have inner := ih elem.length (element_shorter array) elem rfl
          simp only [Option.bind_some, Option.isSome_or, hinted_zero, getTypeByName_isSome]
          split
          · rename_i counted
            simp [empty, counted, inner, Bool.or_assoc]
          · rename_i counted
            rcases not_and_or.mp counted with zero | blank
            · simp [empty, zero]
            · simp [empty, not_not.mp blank]

theorem primitive_mem (found : primitive? name = some type) : ∃ prim ∈ prims, prim.name = name ∧ prim.type = type := by
  simp only [primitive?, Option.map_eq_some_iff] at found
  obtain ⟨prim, first, rfl⟩ := found
  exact ⟨prim, List.mem_of_find?_eq_some first, by simpa using List.find?_some first, rfl⟩

/-- No primitive is a named type, so its rendering needs no keyword. -/
theorem prim_getString (keyword : String → Option Keyword) (prim : PrimEntry) :
    prim.type.getString keyword = prim.type.getString fun _ => none := by
  unfold PrimEntry.type
  split
  · rfl
  · split
    · rfl
    · split
      · rfl
      · cases prim.isSigned <;> rfl

/-- Every primitive of the table is rendered as an alias of its own name. -/
theorem primitive_reads_back (keyword : String → Option Keyword) (found : primitive? name = some type) :
    canonicalChars (type.getString keyword).toList = canonicalChars name.toList := by
  have table : ∀ prim ∈ prims,
      canonicalChars (prim.type.getString fun _ => none).toList = canonicalChars prim.name.toList := by
    decide +kernel
  obtain ⟨prim, member, rfl, rfl⟩ := primitive_mem found
  rw [prim_getString, table prim member]

theorem canonicalChars_void : canonicalChars "void".toList = "void".toList := by decide +kernel

theorem bracket_not_mem_decimal (count : Nat) : '[' ∉ (toString count).toList := by
  intro member
  rw [Nat.toString_eq_ofList_toDigits, String.toList_ofList] at member
  have digit := Nat.isDigit_of_mem_toDigits (by omega) (by omega) member
  exact absurd digit (by decide)

theorem array_getString (keyword : String → Option Keyword) (element : BNType) (count : Nat) :
    ((BNType.array element count).getString keyword).toList =
      (element.getString keyword).toList ++ '[' :: ((toString count).toList ++ [']']) := by
  simp [BNType.getString, String.toList_append]

theorem pointer_getString (keyword : String → Option Keyword) (width : Nat) (target : BNType) :
    ((BNType.pointer width target).getString keyword).toList = (target.getString keyword).toList ++ ['*'] := by
  simp [BNType.getString, String.toList_append]

/-- The brackets of two array names can be compared apart from their elements. -/
theorem bracketed_eq_iff {first second count number : List Char} (plain : '[' ∉ count) (other : '[' ∉ number) :
    first ++ '[' :: (count ++ [']']) = second ++ '[' :: (number ++ [']']) ↔ first = second ∧ count = number := by
  constructor
  · intro same
    have left := splitLast_append first (show '[' ∉ count ++ [']'] by simp [plain])
    have right := splitLast_append second (show '[' ∉ number ++ [']'] by simp [other])
    rw [same, right] at left
    simpa [eq_comm] using left
  · rintro ⟨rfl, rfl⟩
    rfl

/-- A name cut neither as a pointer nor as an array: a type of the view, a
primitive, or the fallback. -/
private theorem leaf_reads_back_iff (view : BinaryView) {name : List Char} {hintSize : Int32}
    {fallback : BNType} (agrees : ∀ type, hinted hintSize = some type → type = fallback) :
    canonicalChars
        (view.getString
          (((view.getTypeByName (String.ofList name)).or <|
            (primitive? (String.ofList name)).or (hinted hintSize)).getD fallback)).toList =
      canonicalChars name ↔
    (if view.knows (String.ofList name) then
        decide (canonicalChars
          ((view.host.keyword (String.ofList name)).elim "" Keyword.text ++ String.ofList name).toList =
            canonicalChars name)
      else (primitive? (String.ofList name)).isSome ||
        canonicalChars name = canonicalChars (view.getString fallback).toList) = true := by
  have lookup := getTypeByName_isSome view (String.ofList name)
  cases found : view.getTypeByName (String.ofList name) with
  | some type =>
    rw [found] at lookup
    simp only [BinaryView.getTypeByName, Option.map_eq_some_iff] at found
    obtain ⟨registered, _, rfl⟩ := found
    simp [← lookup, BinaryView.getString, BNType.getString]
  | none =>
    rw [found] at lookup
    rw [← lookup]
    simp only [Option.none_or, Option.isSome_none, Bool.false_eq_true, if_false]
    cases prim : primitive? (String.ofList name) with
    | some type =>
      have same := primitive_reads_back view.host.keyword prim
      rw [String.toList_ofList] at same
      simp [BinaryView.getString, same]
    | none =>
      have chosen : (hinted hintSize).getD fallback = fallback := by
        cases hint : hinted hintSize with
        | none => rfl
        | some type => exact agrees type hint
      simp [chosen, eq_comm]

/-- A name that is not cut as an array resolves to none. -/
private theorem uncounted_element {view : BinaryView} {name : List Char}
    (array : countedElement? view.knows name = none) :
    ((element? name).bind fun parts =>
      if 0 < (stoull parts.2).getD 0 ∧ parts.1 ≠ [] then
        (resolveChars view parts.1 0).map fun inner => BNType.array inner ((stoull parts.2).getD 0)
      else none) = none := by
  cases found : element? name with
  | none => rfl
  | some parts =>
    simp only [countedElement?, found, Option.filter_some] at array
    have refused : ¬(((0 < (stoull parts.2).getD 0) ∧ parts.1 ≠ []) ∧ resolvable view.knows parts.1 = true) := by
      intro accepted
      simp [accepted] at array
    rw [Option.bind_some]
    split
    · rename_i counted
      have none : resolvable view.knows parts.1 ≠ true := fun resolves => refused ⟨counted, resolves⟩
      rw [← resolveChars_isSome] at none
      simpa using none
    · rfl

/-- A resolved name, or the fallback where it does not resolve, meets the name's
own canonical form exactly when the name reads back. -/
theorem resolved_reads_back_iff (view : BinaryView) (name : List Char) {hintSize : Int32}
    {fallback : BNType} (agrees : ∀ type, hinted hintSize = some type → type = fallback)
    (spelled : canonicalChars (view.getString fallback).toList ≠ []) :
    canonicalChars (view.getString ((resolveChars view name hintSize).getD fallback)).toList =
        canonicalChars name ↔
      readsBack view.knows view.host.keyword (canonicalChars (view.getString fallback).toList) name = true := by
  induction length : name.length using Nat.strongRecOn generalizing name hintSize fallback with
  | _ n ih =>
    subst length
    have void : canonicalChars (view.getString .void).toList = "void".toList := canonicalChars_void
    have spelledVoid : canonicalChars (view.getString .void).toList ≠ [] := by
      rw [void]
      decide
    have unhinted : ∀ type, hinted 0 = some type → type = BNType.void := by
      simp [hinted_zero]
    have inner (base : List Char) (shorter : base.length < name.length) :=
      ih base.length shorter base unhinted spelledVoid rfl
    rw [resolveChars_eq, readsBack_eq]
    by_cases empty : name = []
    · simp [empty, spelled]
    · rw [if_neg empty]
      cases pointer : pointee? name with
      | some base =>
        have shorter := pointee_shorter pointer
        simp only [Option.getD_some, BinaryView.getString, pointer_getString, canonicalChars_star,
          pointee_canonical pointer, List.append_cancel_right_eq]
        by_cases bare : base = []
        · rw [BinaryView.getString] at spelledVoid
          simp [bare, spelledVoid]
        · have step := inner base shorter
          rw [void, BinaryView.getString] at step
          simpa [empty, bare] using step
      | none =>
        cases array : countedElement? view.knows name with
        | some parts =>
          obtain ⟨elem, countStr⟩ := parts
          have found := Option.eq_some_of_filter_eq_some array
          have counted := (Option.filter_eq_some_iff.mp array).2
          simp only [Bool.and_eq_true, decide_eq_true_eq] at counted
          obtain ⟨⟨positive, nonempty⟩, resolves⟩ := counted
          obtain ⟨plain, shape⟩ := element_canonical found
          have shorter := element_shorter found
          rw [← resolveChars_isSome] at resolves
          obtain ⟨type, resolved⟩ := Option.isSome_iff_exists.mp resolves
          have step := inner elem shorter
          rw [void, resolved, Option.getD_some] at step
          have render := array_getString view.host.keyword type ((stoull countStr).getD 0)
          have plainCount := bracket_not_mem_decimal ((stoull countStr).getD 0)
          simp only [found, Option.bind_some, positive, nonempty, ne_eq, not_false_eq_true, and_self,
            if_true, resolved, Option.map_some, Option.some_or, Option.getD_some, BinaryView.getString,
            render, canonicalChars_bracket _ plainCount, shape, bracketed_eq_iff plainCount plain]
          rw [BinaryView.getString] at step
          simp only [step, empty, not_false_eq_true, decide_true, Bool.true_and, Bool.and_eq_true,
            decide_eq_true_eq]
          exact ⟨fun both => ⟨both.2.symm, both.1⟩, fun both => ⟨both.2, both.1.symm⟩⟩
        | none =>
          simp only [uncounted_element array, Option.none_or]
          simpa [empty] using leaf_reads_back_iff view agrees

end GhidraBridge
