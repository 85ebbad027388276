import GhidraBridge.Collect
import GhidraBridge.CheckinJson
import GhidraBridge.ProgramApplier

/-! What a check-in leaves in Ghidra's bookmark manager. All additions are sent
before all deletions, and a deletion names only an address and a type, so one
deleted or edited bookmark takes every other one of its address and type with it. -/
namespace GhidraBridge.BookmarkWriteback
open Lib Lib.Scan CheckinState ProgramApplier

/-- Bookmarks a program can hold: one per address, type and category, at addresses
of the program that a signed offset can name, in categories a tag can spell. -/
structure BookmarkSet (space : AddressSpace) where
  list : List GhidraBookmark
  unique : ∀ b ∈ list, ∀ other ∈ list,
    other.addr = b.addr → other.type = b.type → other.category = b.category → other = b
  plain : ∀ b ∈ list, ']' ∉ b.category.toList
  inSpace : ∀ b ∈ list, space.contains b.addr = true ∧ ¬b.addr.toInt64 < 0

/-- The program holds exactly these bookmarks. -/
def Holds {space : AddressSpace} (program : ProgramDB space) (bookmarks : List GhidraBookmark) : Prop :=
  ∀ va type category comment,
    program.bookmarkAt va type category = some comment ↔ (⟨type, va, category, comment⟩ : GhidraBookmark) ∈ bookmarks

/-- The `"Ghidra: "` tags of the view are exactly those of these bookmarks. -/
def Encodes (state : CheckinState) (view : BinaryView) (bookmarks : List GhidraBookmark) : Prop :=
  ∀ k, k ∈ currentKeys state view ↔ ∃ b ∈ bookmarks, bookmarkKey b = k

/-! ## Reading a tag back -/

/-- The tag text shows where the category ends. -/
def Legible (b : GhidraBookmark) : Prop := ¬(b.category = "" ∧ b.comment.toList.head? = some '[')

theorem parseTagData_ne_self {tagData : String} (bracket : tagData.toList.head? = some '[') :
    (parseTagData tagData).2 ≠ tagData := by
  intro same
  unfold parseTagData at same
  cases chars : tagData.toList with
  | nil => simp [chars] at bracket
  | cons first rest =>
    rw [chars, List.head?_cons, Option.some.injEq] at bracket
    subst bracket
    rw [chars] at same
    cases split : splitFirst ']' rest with
    | none =>
      simp only [split] at same
      simp [← same] at chars
    | some parts =>
      obtain ⟨category, after⟩ := parts
      have shape := (splitFirst_eq_some.mp split).1
      simp only [split] at same
      have lengths : (after.drop 1).length = tagData.toList.length := by rw [← same, String.toList_ofList]
      rw [chars, shape, List.length_drop, List.length_cons, List.length_append, List.length_cons] at lengths
      omega

/-- A tag text reads back as its bookmark exactly when it is legible. -/
theorem parseTagData_legible {b : GhidraBookmark} (plain : ']' ∉ b.category.toList) (legible : Legible b) :
    parseTagData (bookmarkTagData b.category b.comment) = (b.category, b.comment) := by
  unfold bookmarkTagData
  by_cases uncategorized : b.category = ""
  · have noBracket : b.comment.toList.head? ≠ some '[' := fun bracket => legible ⟨uncategorized, bracket⟩
    rw [if_pos uncategorized, uncategorized, String.empty_append, parseTagData]
    split
    · rename_i rest chars
      simp [chars] at noBracket
    · rfl
  · rw [if_neg uncategorized, parseTagData]
    have chars : ("[" ++ b.category ++ "] " ++ b.comment).toList =
        '[' :: (b.category.toList ++ ']' :: (' ' :: b.comment.toList)) := by simp
    rw [chars]
    simp [splitFirst_append _ plain]

/-! ## What one entry does -/

section Apply
variable {space : AddressSpace} {program : ProgramDB space}

theorem bookmarkAt_setBookmark {addr : space.Address} {type category comment : String} {va : UInt64}
    {probeType probeCategory : String} :
    (setBookmark program addr type category comment).bookmarkAt va probeType probeCategory =
      if addr.val = va ∧ type = probeType ∧ category = probeCategory then some comment
      else program.bookmarkAt va probeType probeCategory := by
  unfold ProgramDB.bookmarkAt setBookmark
  cases found : space.getAddress va with
  | none =>
    have elsewhere := AddressSpace.ne_of_getAddress_eq_none found addr
    simp [elsewhere]
  | some here =>
    have same : here.val = va := AddressSpace.getAddress_eq_some.mp found
    subst same
    simp [Table.lookup_set, Subtype.ext_iff, eq_comm]

theorem mem_getBookmarks {addr : space.Address} {type : String} {key : space.Address × String × String} :
    key ∈ getBookmarks program addr type ↔ key ∈ program.bookmarks ∧ key.1 = addr ∧ key.2.1 = type := by
  unfold getBookmarks
  rw [List.mem_filter, List.mem_map, ← AList.lookup_isSome, Option.isSome_iff_exists]
  constructor
  · rintro ⟨⟨⟨held, comment⟩, member, rfl⟩, matched⟩
    exact ⟨⟨comment, Table.mem_items.mp member⟩, by simpa using matched⟩
  · rintro ⟨⟨comment, held⟩, matched⟩
    exact ⟨⟨(key, comment), Table.mem_items.mpr held, rfl⟩, by simpa using matched⟩

theorem bookmarks_removeAll (keys : List (space.Address × String × String)) :
    (keys.foldl removeBookmark program).bookmarks =
      keys.foldl (fun current key => current.erase key) program.bookmarks := by
  induction keys generalizing program with
  | nil => rfl
  | cons key rest ih => exact ih

theorem bookmarkAt_removeAll {addr : space.Address} {type : String} {va : UInt64} {probeType probeCategory : String} :
    ((getBookmarks program addr type).foldl removeBookmark program).bookmarkAt va probeType probeCategory =
      if addr.val = va ∧ type = probeType then none else program.bookmarkAt va probeType probeCategory := by
  unfold ProgramDB.bookmarkAt
  cases found : space.getAddress va with
  | none => simp
  | some here =>
    have same : here.val = va := AddressSpace.getAddress_eq_some.mp found
    subst same
    rw [Option.bind_some, Option.bind_some, bookmarks_removeAll, Table.lookup_foldl_erase]
    simp only [mem_getBookmarks]
    by_cases matched : addr.val = here.val ∧ type = probeType
    · obtain ⟨sameAddr, rfl⟩ := matched
      have equal : here = addr := Subtype.ext sameAddr.symm
      subst equal
      by_cases held : (here, type, probeCategory) ∈ program.bookmarks
      · simp [held]
      · simp [held, AList.lookup_eq_none.mpr held]
    · rw [if_neg matched, if_neg]
      rintro ⟨_, sameAddr, sameType⟩
      exact matched ⟨congrArg Subtype.val sameAddr.symm, sameType.symm⟩

/-- An entry at an address of the program is applied. -/
theorem applyBookmark_entry {rebase : UInt64} (applied : Applied space) (b : BookmarkChange)
    (addr : space.Address) (here : b.addr - rebase = addr.val) (nonnegative : ¬addr.val.toInt64 < 0) :
    applyBookmark applied (CheckinJson.bookmarkEntry rebase b) =
      some
        { program := changeBookmark applied.program addr b.op.text b.type b.category b.comment
          count := applied.count + 1 } := by
  have object : (CheckinJson.bookmarkEntry rebase b).isObject = true := rfl
  have op : (CheckinJson.bookmarkEntry rebase b).getStr "op" "add" = some b.op.text := rfl
  have type : (CheckinJson.bookmarkEntry rebase b).getStr "type" "Note" = some b.type := rfl
  have category : (CheckinJson.bookmarkEntry rebase b).getStr "category" "" = some b.category := rfl
  have comment : (CheckinJson.bookmarkEntry rebase b).getStr "comment" "" = some b.comment := rfl
  have va : (CheckinJson.bookmarkEntry rebase b).get? "addr" = some (.str (toHex addr.val)) := by
    rw [← here]
    rfl
  have found : space.getAddress addr.val = some addr := AddressSpace.getAddress_eq_some.mpr rfl
  unfold applyBookmark
  simp only [object, op, type, category, comment, va, Json.getAsString, Option.bind_some, parseHexLong_toHex,
    Option.bind_eq_bind, Bool.true_eq_false, if_false, nonnegative, found]
  rfl

variable {state : CheckinState} {view : BinaryView}

/-- A key at an address of the program that a signed offset can name. -/
def Reachable (space : AddressSpace) (k : BookmarkKey) : Prop :=
  space.contains k.addr = true ∧ ¬k.addr.toInt64 < 0

def entryOf (state : CheckinState) (view : BinaryView) (b : BookmarkChange) : Json :=
  CheckinJson.bookmarkEntry (rebase state view) b

/-- The key names the bookmark that its addition sets. -/
def Sets (k : BookmarkKey) (va : UInt64) (type category : String) : Prop :=
  k.addr = va ∧ k.type = type ∧ (parseTagData k.tagData).1 = category

instance (k : BookmarkKey) (va : UInt64) (type category : String) : Decidable (Sets k va type category) :=
  inferInstanceAs (Decidable (_ ∧ _ ∧ _))

theorem apply_addition {k : BookmarkKey} (reachable : Reachable space k) (applied : Applied space) :
    ∃ next, applyBookmark applied (entryOf state view (bookmarkAdd state view k)) = some next ∧
      ∀ va type category, next.program.bookmarkAt va type category =
        if Sets k va type category then some (parseTagData k.tagData).2
        else applied.program.bookmarkAt va type category := by
  refine ⟨_, applyBookmark_entry applied _ ⟨k.addr, reachable.1⟩ (UInt64.add_sub_cancel _ _) reachable.2, ?_⟩
  intro va type category
  have notDelete : (bookmarkAdd state view k).op.text ≠ "delete" := by
    change "add" ≠ "delete"
    decide
  dsimp only
  rw [changeBookmark, if_neg notDelete, bookmarkAt_setBookmark]
  rfl

theorem apply_deletion {k : BookmarkKey} (reachable : Reachable space k) (applied : Applied space) :
    ∃ next, applyBookmark applied (entryOf state view (bookmarkDelete state view k)) = some next ∧
      ∀ va type category, next.program.bookmarkAt va type category =
        if k.addr = va ∧ k.type = type then none else applied.program.bookmarkAt va type category := by
  refine ⟨_, applyBookmark_entry applied _ ⟨k.addr, reachable.1⟩ (UInt64.add_sub_cancel _ _) reachable.2, ?_⟩
  intro va type category
  have isDelete : (bookmarkDelete state view k).op.text = "delete" := rfl
  dsimp only
  rw [changeBookmark, if_pos isDelete, bookmarkAt_removeAll]
  rfl

/-- A run of additions: the last one of an address, type and category decides it. -/
theorem apply_additions {keys : List BookmarkKey} (reachable : ∀ k ∈ keys, Reachable space k)
    (applied : Applied space) :
    ∃ final,
      ((keys.map (bookmarkAdd state view)).map (entryOf state view)).foldlM applyBookmark applied = some final ∧
      ∀ va type category, final.program.bookmarkAt va type category =
        ((keys.reverse.find? fun k => Sets k va type category).map fun k => (parseTagData k.tagData).2).or
          (applied.program.bookmarkAt va type category) := by
  induction keys generalizing applied with
  | nil => exact ⟨applied, rfl, by simp⟩
  | cons k rest ih =>
    obtain ⟨next, stepped, wrote⟩ := @apply_addition space state view k (reachable k List.mem_cons_self) applied
    obtain ⟨final, ran, ends⟩ := ih (fun other member => reachable other (List.mem_cons_of_mem k member)) next
    refine ⟨final, ?_, ?_⟩
    · rw [List.map_cons, List.map_cons, List.foldlM_cons, stepped]
      exact ran
    · intro va type category
      rw [ends, wrote, List.reverse_cons, List.find?_append]
      cases rest.reverse.find? fun k => Sets k va type category with
      | some later => simp
      | none =>
        by_cases here : Sets k va type category
        · simp [here]
        · simp [here]

/-- A run of deletions: everything of their addresses and types is gone. -/
theorem apply_deletions {keys : List BookmarkKey} (reachable : ∀ k ∈ keys, Reachable space k)
    (applied : Applied space) :
    ∃ final,
      ((keys.map (bookmarkDelete state view)).map (entryOf state view)).foldlM applyBookmark applied = some final ∧
      ∀ va type category, final.program.bookmarkAt va type category =
        if ∃ k ∈ keys, k.addr = va ∧ k.type = type then none
        else applied.program.bookmarkAt va type category := by
  induction keys generalizing applied with
  | nil => exact ⟨applied, rfl, by simp⟩
  | cons k rest ih =>
    obtain ⟨next, stepped, removed⟩ := @apply_deletion space state view k (reachable k List.mem_cons_self) applied
    obtain ⟨final, ran, ends⟩ := ih (fun other member => reachable other (List.mem_cons_of_mem k member)) next
    refine ⟨final, ?_, ?_⟩
    · rw [List.map_cons, List.map_cons, List.foldlM_cons, stepped]
      exact ran
    · intro va type category
      rw [ends, removed]
      by_cases later : ∃ other ∈ rest, other.addr = va ∧ other.type = type
      · simp [later]
      · by_cases here : k.addr = va ∧ k.type = type
        · simp [here]
        · simp [here, later]

end Apply

/-! ## A check-in of the view's tags -/

/-- The bookmark array of the request a check-in of this view sends. -/
def sentBookmarks (state : CheckinState) (view : BinaryView) : List Json :=
  requestArray
    (CheckinJson.buildCheckinJson (rebase state view) (collectCheckinChanges state view)
      state.addrToOriginalFuncComment state.addrToCommentField)
    "bookmark_changes"

/-- The keys a check-in sends as additions. -/
def addedKeys (state : CheckinState) (view : BinaryView) : List BookmarkKey :=
  (currentKeys state view).list.filter fun k => k ∉ state.ghidraBookmarkKeys

/-- A recorded bookmark of the address and type has no tag any more. -/
def Deletes (state : CheckinState) (view : BinaryView) (va : UInt64) (type : String) : Prop :=
  ∃ k ∈ state.ghidraBookmarkKeys, k ∉ currentKeys state view ∧ k.addr = va ∧ k.type = type

theorem applyBookmarks_sent {space : AddressSpace} {state : CheckinState} {view : BinaryView}
    (imported : state.checkinItem ≠ "") (shown : ∀ k ∈ currentKeys state view, Reachable space k)
    (recorded : ∀ k ∈ state.ghidraBookmarkKeys, Reachable space k) (program : ProgramDB space) :
    ∃ final, applyBookmarks program (sentBookmarks state view) = some final ∧
      ∀ va type category,
        (Deletes state view va type → final.program.bookmarkAt va type category = none) ∧
        (¬Deletes state view va type → final.program.bookmarkAt va type category =
          (((addedKeys state view).reverse.find? fun k => Sets k va type category).map fun k =>
            (parseTagData k.tagData).2).or (program.bookmarkAt va type category)) := by
  obtain ⟨middle, ranAdds, added⟩ := @apply_additions space state view (addedKeys state view)
    (fun k member => shown k (List.mem_of_mem_filter member)) { program }
  obtain ⟨final, ranDeletes, deleted⟩ := @apply_deletions space state view
    (state.ghidraBookmarkKeys.list.filter fun k => k ∉ currentKeys state view)
    (fun k member => recorded k (List.mem_of_mem_filter member)) middle
  have sent : sentBookmarks state view = (collectBookmarks state view).map (entryOf state view) := by
    unfold sentBookmarks collectCheckinChanges
    rw [if_neg imported]
    rfl
  refine ⟨final, ?_, ?_⟩
  · have shape : collectBookmarks state view = (addedKeys state view).map (bookmarkAdd state view) ++
        (state.ghidraBookmarkKeys.list.filter fun k => k ∉ currentKeys state view).map
          (bookmarkDelete state view) := rfl
    rw [applyBookmarks, sent, shape, List.map_append, List.foldlM_append, ranAdds]
    exact ranDeletes
  · intro va type category
    have same : (∃ k ∈ state.ghidraBookmarkKeys.list.filter fun k => k ∉ currentKeys state view,
        k.addr = va ∧ k.type = type) ↔ Deletes state view va type := by
      simp [Deletes, Roster.mem_list, and_assoc]
    rw [deleted va type category, added va type category]
    exact ⟨fun deletes => if_pos (same.mpr deletes), fun keeps => if_neg (mt same.mp keeps)⟩

/-! ## When the bookmarks settle -/

/-- Of an address and type, no bookmark is left; or each recorded one still has its
tag and its category, and each other one has a tag of its own that reads back. -/
def Settles (base target : List GhidraBookmark) (va : UInt64) (type : String) : Prop :=
  (∀ b ∈ target, ¬(b.addr = va ∧ b.type = type)) ∨
    ((∀ b ∈ base, b.addr = va → b.type = type →
      (∃ kept ∈ target, bookmarkKey kept = bookmarkKey b) ∧
        ∃ kept ∈ target, kept.addr = va ∧ kept.type = type ∧ kept.category = b.category) ∧
    ∀ b ∈ target, b.addr = va → b.type = type →
      b ∈ base ∨ (Legible b ∧ ∀ old ∈ base, bookmarkKey old ≠ bookmarkKey b))

/-- The key of a legible bookmark sets that bookmark. -/
theorem sets_of_legible {b : GhidraBookmark} (plain : ']' ∉ b.category.toList) (legible : Legible b) {va : UInt64}
    {type category : String} :
    Sets (bookmarkKey b) va type category ↔ b.addr = va ∧ b.type = type ∧ b.category = category := by
  have parsed := parseTagData_legible plain legible
  unfold Sets
  rw [show (bookmarkKey b).tagData = bookmarkTagData b.category b.comment from rfl, parsed]
  rfl

section Settle
variable {space : AddressSpace} {base target : BookmarkSet space} {state : CheckinState} {view : BinaryView}
variable (recorded : ∀ k, k ∈ state.ghidraBookmarkKeys ↔ ∃ b ∈ base.list, bookmarkKey b = k)
variable (encodes : Encodes state view target.list)

include recorded encodes

theorem mem_addedKeys {k : BookmarkKey} :
    k ∈ addedKeys state view ↔
      ∃ b ∈ target.list, bookmarkKey b = k ∧ ∀ old ∈ base.list, bookmarkKey old ≠ bookmarkKey b := by
  unfold addedKeys
  rw [List.mem_filter, Roster.mem_list, encodes, decide_eq_true_eq, recorded]
  constructor
  · rintro ⟨⟨b, member, rfl⟩, fresh⟩
    exact ⟨b, member, rfl, fun old oldMember same => fresh ⟨old, oldMember, same⟩⟩
  · rintro ⟨b, member, rfl, fresh⟩
    exact ⟨⟨b, member, rfl⟩, fun ⟨old, oldMember, same⟩ => fresh old oldMember same⟩

theorem deletes_iff {va : UInt64} {type : String} :
    Deletes state view va type ↔
      ∃ b ∈ base.list, b.addr = va ∧ b.type = type ∧ ∀ kept ∈ target.list, bookmarkKey kept ≠ bookmarkKey b := by
  unfold Deletes
  constructor
  · rintro ⟨k, held, gone, sameAddr, sameType⟩
    obtain ⟨b, member, rfl⟩ := (recorded k).mp held
    refine ⟨b, member, sameAddr, sameType, ?_⟩
    exact fun kept keptMember same => gone ((encodes _).mpr ⟨kept, keptMember, same⟩)
  · rintro ⟨b, member, sameAddr, sameType, gone⟩
    refine ⟨bookmarkKey b, (recorded _).mpr ⟨b, member, rfl⟩, ?_, sameAddr, sameType⟩
    intro current
    obtain ⟨kept, keptMember, same⟩ := (encodes _).mp current
    exact gone kept keptMember same

variable {before after : ProgramDB space}
variable (checkedIn : ∀ va type category,
  (Deletes state view va type → after.bookmarkAt va type category = none) ∧
  (¬Deletes state view va type → after.bookmarkAt va type category =
    (((addedKeys state view).reverse.find? fun k => Sets k va type category).map fun k =>
      (parseTagData k.tagData).2).or (before.bookmarkAt va type category)))
include checkedIn

/-- What stands at an address and type that lost nothing: an addition that names
it, or what the program had there. -/
theorem bookmarkAt_cases {va : UInt64} {type : String} (keeps : ¬Deletes state view va type) (category : String) :
    (∃ b ∈ target.list, (∀ old ∈ base.list, bookmarkKey old ≠ bookmarkKey b) ∧
      Sets (bookmarkKey b) va type category ∧
      after.bookmarkAt va type category = some (parseTagData (bookmarkKey b).tagData).2) ∨
    ((∀ b ∈ target.list, (∀ old ∈ base.list, bookmarkKey old ≠ bookmarkKey b) →
      ¬Sets (bookmarkKey b) va type category) ∧
      after.bookmarkAt va type category = before.bookmarkAt va type category) := by
  have stands := (checkedIn va type category).2 keeps
  cases found : (addedKeys state view).reverse.find? fun k => Sets k va type category with
  | some k =>
    have added := List.mem_reverse.mp (List.mem_of_find?_eq_some found)
    obtain ⟨b, member, rfl, fresh⟩ := (mem_addedKeys recorded encodes).mp added
    have names : Sets (bookmarkKey b) va type category := by simpa using List.find?_some found
    rw [found] at stands
    exact .inl ⟨b, member, fresh, names, stands⟩
  | none =>
    rw [found] at stands
    refine .inr ⟨?_, stands⟩
    intro b member fresh names
    have added : bookmarkKey b ∈ addedKeys state view :=
      (mem_addedKeys recorded encodes).mpr ⟨b, member, rfl, fresh⟩
    have missed := List.find?_eq_none.mp found _ (List.mem_reverse.mpr added)
    exact missed (by simpa using names)

variable (holds : Holds before base.list)
include holds

/-- A new bookmark that is held under its own category is legible: an illegible one
is sent under another category or with another text. -/
theorem legible_of_holds (settled : Holds after target.list) {va : UInt64} {type : String}
    (keeps : ¬Deletes state view va type) {b : GhidraBookmark} (member : b ∈ target.list) (atAddr : b.addr = va)
    (ofType : b.type = type) (fresh : ∀ old ∈ base.list, bookmarkKey old ≠ bookmarkKey b) : Legible b := by
  rintro ⟨uncategorized, bracket⟩
  subst atAddr ofType
  have held : after.bookmarkAt b.addr b.type b.category = some b.comment :=
    (settled b.addr b.type b.category b.comment).mpr member
  rcases bookmarkAt_cases recorded encodes checkedIn keeps b.category with
    ⟨other, otherMember, _, ⟨sameAddr, sameType, sameCategory⟩, stands⟩ | ⟨_, stands⟩
  · have equal : other = b := by
      refine target.unique b member other otherMember sameAddr sameType ?_
      by_cases legible : Legible other
      · have parsed := parseTagData_legible (target.plain other otherMember) legible
        rw [show (bookmarkKey other).tagData = bookmarkTagData other.category other.comment from rfl,
          parsed] at sameCategory
        exact sameCategory
      · rw [(not_not.mp legible).1, uncategorized]
    subst equal
    rw [held, Option.some.injEq] at stands
    have tag : (bookmarkKey other).tagData = other.comment := by
      simp [bookmarkKey, bookmarkTagData, uncategorized]
    rw [tag] at stands
    exact parseTagData_ne_self bracket stands.symm
  · rw [held, eq_comm, holds] at stands
    exact fresh b stands rfl

theorem settles_of_holds (settled : Holds after target.list) (va : UInt64) (type : String) :
    Settles base.list target.list va type := by
  by_cases empty : ∀ b ∈ target.list, ¬(b.addr = va ∧ b.type = type)
  · exact .inl empty
  · refine .inr ?_
    obtain ⟨first, firstMember, firstAddr, firstType⟩ : ∃ b ∈ target.list, b.addr = va ∧ b.type = type := by
      simpa using empty
    subst firstAddr firstType
    have keeps : ¬Deletes state view first.addr first.type := by
      intro deletes
      have held := (settled first.addr first.type first.category first.comment).mpr firstMember
      rw [(checkedIn _ _ _).1 deletes] at held
      cases held
    have tagged : ∀ b ∈ base.list, b.addr = first.addr → b.type = first.type →
        ∃ kept ∈ target.list, bookmarkKey kept = bookmarkKey b := by
      intro b member sameAddr sameType
      by_contra gone
      refine keeps ((deletes_iff recorded encodes).mpr ⟨b, member, sameAddr, sameType, ?_⟩)
      exact fun kept keptMember same => gone ⟨kept, keptMember, same⟩
    have legible {b : GhidraBookmark} (member : b ∈ target.list) (sameAddr : b.addr = first.addr)
        (sameType : b.type = first.type) (fresh : ∀ old ∈ base.list, bookmarkKey old ≠ bookmarkKey b) :
        Legible b :=
      legible_of_holds recorded encodes checkedIn holds settled keeps member sameAddr sameType fresh
    refine ⟨fun b member sameAddr sameType => ⟨tagged b member sameAddr sameType, ?_⟩, ?_⟩
    · rcases bookmarkAt_cases recorded encodes checkedIn keeps b.category with
        ⟨other, otherMember, fresh, names, _⟩ | ⟨_, stands⟩
      · have clear := legible otherMember names.1 names.2.1 fresh
        exact ⟨other, otherMember, (sets_of_legible (target.plain other otherMember) clear).mp names⟩
      · have held := (holds b.addr b.type b.category b.comment).mpr member
        rw [sameAddr, sameType, ← stands] at held
        exact ⟨_, (settled _ _ _ _).mp held, rfl, rfl, rfl⟩
    · intro b member sameAddr sameType
      by_cases fresh : ∀ old ∈ base.list, bookmarkKey old ≠ bookmarkKey b
      · exact .inr ⟨legible member sameAddr sameType fresh, fresh⟩
      · have held := (settled b.addr b.type b.category b.comment).mpr member
        rw [sameAddr, sameType] at held
        rcases bookmarkAt_cases recorded encodes checkedIn keeps b.category with
          ⟨other, otherMember, otherFresh, names, _⟩ | ⟨_, stands⟩
        · have clear := legible otherMember names.1 names.2.1 otherFresh
          obtain ⟨otherAddr, otherType, otherCategory⟩ :=
            (sets_of_legible (target.plain other otherMember) clear).mp names
          have equal := target.unique b member other otherMember (otherAddr.trans sameAddr.symm)
            (otherType.trans sameType.symm) otherCategory
          exact absurd (equal ▸ otherFresh) fresh
        · rw [stands, holds, ← sameAddr, ← sameType] at held
          exact .inl held

/-- Where the tags encode nothing, nothing stays. -/
theorem untagged_is_gone {va : UInt64} {type category comment : String}
    (empty : ∀ b ∈ target.list, ¬(b.addr = va ∧ b.type = type)) :
    after.bookmarkAt va type category ≠ some comment := by
  intro held
  by_cases deletes : Deletes state view va type
  · rw [(checkedIn _ _ _).1 deletes] at held
    cases held
  · rcases bookmarkAt_cases recorded encodes checkedIn deletes category with
      ⟨other, otherMember, _, names, _⟩ | ⟨_, stands⟩
    · exact empty other otherMember ⟨names.1, names.2.1⟩
    · rw [stands, holds] at held
      refine deletes ((deletes_iff recorded encodes).mpr ⟨_, held, rfl, rfl, ?_⟩)
      intro other otherMember same
      have sameAddr := congrArg BookmarkKey.addr same
      have sameType := congrArg BookmarkKey.type same
      exact empty other otherMember ⟨sameAddr, sameType⟩

theorem holds_of_settles (settles : ∀ va type, Settles base.list target.list va type) :
    Holds after target.list := by
  intro va type category comment
  rcases settles va type with empty | ⟨kept, added⟩
  · refine iff_of_false ?_ (fun member => empty _ member ⟨rfl, rfl⟩)
    exact untagged_is_gone recorded encodes checkedIn holds empty
  · have keeps : ¬Deletes state view va type := by
      intro deletes
      obtain ⟨b, member, sameAddr, sameType, gone⟩ := (deletes_iff recorded encodes).mp deletes
      obtain ⟨⟨tagged, taggedMember, same⟩, _⟩ := kept b member sameAddr sameType
      exact gone tagged taggedMember same
    have legible {b : GhidraBookmark} (member : b ∈ target.list) (sameAddr : b.addr = va) (sameType : b.type = type)
        (fresh : ∀ old ∈ base.list, bookmarkKey old ≠ bookmarkKey b) : Legible b := by
      rcases added b member sameAddr sameType with old | ⟨clear, _⟩
      · exact absurd rfl (fresh b old)
      · exact clear
    rcases bookmarkAt_cases recorded encodes checkedIn keeps category with
      ⟨other, otherMember, fresh, names, stands⟩ | ⟨unnamed, stands⟩
    · have clear := legible otherMember names.1 names.2.1 fresh
      obtain ⟨otherAddr, otherType, otherCategory⟩ :=
        (sets_of_legible (target.plain other otherMember) clear).mp names
      have parsed := parseTagData_legible (target.plain other otherMember) clear
      rw [show (bookmarkKey other).tagData = bookmarkTagData other.category other.comment from rfl, parsed] at stands
      rw [stands, Option.some.injEq]
      subst otherAddr otherType otherCategory
      constructor
      · rintro rfl
        exact otherMember
      · intro member
        exact congrArg GhidraBookmark.comment (target.unique _ member other otherMember rfl rfl rfl)
    · rw [stands, holds]
      constructor
      · intro old
        obtain ⟨_, same, sameMember, sameAddr, sameType, sameCategory⟩ := kept _ old rfl rfl
        rcases added same sameMember sameAddr sameType with sameOld | ⟨clear, fresh⟩
        · have equal := base.unique _ old same sameOld sameAddr sameType sameCategory
          exact equal ▸ sameMember
        · refine absurd ?_ (unnamed same sameMember fresh)
          exact (sets_of_legible (target.plain same sameMember) clear).mpr ⟨sameAddr, sameType, sameCategory⟩
      · intro member
        rcases added _ member rfl rfl with old | ⟨clear, fresh⟩
        · exact old
        · refine absurd ?_ (unnamed _ member fresh)
          exact (sets_of_legible (target.plain _ member) clear).mpr ⟨rfl, rfl, rfl⟩

end Settle

/-- Checking in the tags of a view leaves the program with exactly the bookmarks
they encode if and only if every address and type settles. -/
theorem checked_in_bookmarks_iff {space : AddressSpace} (base target : BookmarkSet space) (r : SyncResult)
    (repo folder item : String) (view : BinaryView) (program : ProgramDB space) (imported : item ≠ "")
    (baseline : r.bookmarks = base.list) (holds : Holds program base.list)
    (encodes : Encodes (CheckinState.store r repo folder item) view target.list) :
    (∃ applied, applyBookmarks program (sentBookmarks (CheckinState.store r repo folder item) view) = some applied ∧
      Holds applied.program target.list) ↔
      ∀ va type, Settles base.list target.list va type := by
  have recorded : ∀ k, k ∈ (CheckinState.store r repo folder item).ghidraBookmarkKeys ↔
      ∃ b ∈ base.list, bookmarkKey b = k := by
    intro k
    change k ∈ Roster.ofList (r.bookmarks.map bookmarkKey) ↔ _
    rw [Roster.mem_ofList, List.mem_map, baseline]
  have shown : ∀ k ∈ currentKeys (CheckinState.store r repo folder item) view, Reachable space k := by
    intro k current
    obtain ⟨b, member, rfl⟩ := (encodes k).mp current
    exact target.inSpace b member
  have known : ∀ k ∈ (CheckinState.store r repo folder item).ghidraBookmarkKeys, Reachable space k := by
    intro k held
    obtain ⟨b, member, rfl⟩ := (recorded k).mp held
    exact base.inSpace b member
  obtain ⟨final, ran, checkedIn⟩ :=
    @applyBookmarks_sent space (CheckinState.store r repo folder item) view imported shown known program
  constructor
  · rintro ⟨applied, same, settled⟩
    rw [ran, Option.some.injEq] at same
    subst same
    exact settles_of_holds recorded encodes checkedIn holds settled
  · intro settles
    exact ⟨final, ran, holds_of_settles recorded encodes checkedIn holds settles⟩

/-- One bookmark with the given text. -/
def oneBookmark (comment : String) : BookmarkSet {} where
  list := [⟨"Note", 0x401000, "", comment⟩]
  unique := by simp
  plain := by simp
  inSpace := by
    intro b member
    obtain rfl := List.mem_singleton.mp member
    exact ⟨rfl, (by decide : ¬(0x401000 : UInt64).toInt64 < 0)⟩

/-- A view with the tag of that bookmark. -/
def taggedView (comment : String) : BinaryView := { dataTags := [⟨0x401000, some "Ghidra: Note", comment⟩] }

/-- The check-in state after an import of that bookmark. -/
def bookmarkedState (comment : String) : CheckinState :=
  CheckinState.store { bookmarks := (oneBookmark comment).list } "r" "/" "prog"

/-- The program that bookmark was exported from. -/
def bookmarkedProgram (comment : String) : ProgramDB {} :=
  { bookmarks := Table.set ∅ (AddressSpace.flat 0x401000, "Note", "") comment }

/-- That bookmark, and one of another category beside it. -/
def twoBookmarks : BookmarkSet {} where
  list := (oneBookmark "entry").list ++ [⟨"Note", 0x401000, "Analysis", "check"⟩]
  unique := by simp [oneBookmark]
  plain := by simp [oneBookmark]
  inSpace := by
    intro b member
    simp only [oneBookmark, List.cons_append, List.nil_append, List.mem_cons, List.not_mem_nil, or_false] at member
    rcases member with rfl | rfl <;> exact ⟨rfl, (by decide : ¬(0x401000 : UInt64).toInt64 < 0)⟩

/-- A view with the tags of both. -/
def twiceTaggedView : BinaryView where
  dataTags := (taggedView "entry").dataTags ++ [⟨0x401000, some "Ghidra: Note", "[Analysis] check"⟩]

/-- A bookmark of another category arrives beside the one that stays. -/
theorem second_bookmark_arrives :
    ∃ applied, applyBookmarks (bookmarkedProgram "entry")
        (sentBookmarks (bookmarkedState "entry") twiceTaggedView) = some applied ∧
      Holds applied.program twoBookmarks.list := by
  have encodes : Encodes (bookmarkedState "entry") twiceTaggedView twoBookmarks.list := by
    intro k
    have shown : twiceTaggedView.dataTags.filterMap (currentKey (bookmarkedState "entry") twiceTaggedView) =
        twoBookmarks.list.map bookmarkKey := by
      decide +kernel
    rw [currentKeys, Roster.mem_ofList, shown, List.mem_map]
  have holds : Holds (bookmarkedProgram "entry") (oneBookmark "entry").list := by
    intro va type category comment
    have inside : AddressSpace.getAddress {} va = some (AddressSpace.flat va) := rfl
    rw [ProgramDB.bookmarkAt, inside, Option.bind_some, bookmarkedProgram, Table.lookup_set, oneBookmark,
      List.mem_singleton]
    simp only [GhidraBookmark.mk.injEq, Prod.mk.injEq, AddressSpace.flat, Subtype.mk.injEq]
    constructor
    · intro held
      split at held
      · rename_i same
        cases held
        exact ⟨same.2.1, same.1, same.2.2, rfl⟩
      · cases held
    · rintro ⟨rfl, rfl, rfl, rfl⟩
      rfl
  refine (checked_in_bookmarks_iff (oneBookmark "entry") twoBookmarks { bookmarks := (oneBookmark "entry").list } "r"
    "/" "prog" twiceTaggedView (bookmarkedProgram "entry") (by decide) rfl holds encodes).mpr fun va type => .inr ?_
  constructor
  · intro b member _ _
    exact ⟨⟨b, List.mem_append_left _ member, rfl⟩, b, List.mem_append_left _ member, ‹_›, ‹_›, rfl⟩
  · intro b member _ _
    refine (List.mem_append.mp member).imp id fun added => ?_
    obtain rfl := List.mem_singleton.mp added
    refine ⟨by simp [Legible], fun old there => ?_⟩
    obtain rfl := List.mem_singleton.mp there
    simp [bookmarkKey, bookmarkTagData]

/-- A bookmark's text is edited, and the bookmark is lost: its new text is set,
then everything of its address and type is deleted. -/
theorem reworded_bookmark_is_lost :
    (currentKeys (bookmarkedState "old") (taggedView "new")).list = (oneBookmark "new").list.map bookmarkKey ∧
      (bookmarkedProgram "old").bookmarkAt 0x401000 "Note" "" = some "old" ∧
      (applyBookmarks (bookmarkedProgram "old") (sentBookmarks (bookmarkedState "old") (taggedView "new"))).map
        (fun applied => applied.program.bookmarkAt 0x401000 "Note" "") = some none := by
  decide +kernel

end GhidraBridge.BookmarkWriteback
