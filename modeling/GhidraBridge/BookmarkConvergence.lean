import Mathlib.Data.Finset.Max
import GhidraBridge.BookmarkWriteback
import GhidraBridge.Convergence

/-! Bookmarks after a check-in of everything collected. An addition is recorded in
the spelling its parts are put together in again, and a deletion under the key
with no text, so the next collection is empty exactly when neither of the two
differs from the key it stands for. -/
namespace GhidraBridge.BookmarkConvergence
open Lib Lib.Scan CheckinState BaselineMoves CheckinRetention BookmarkWriteback Convergence

variable {state next : CheckinState} {view : BinaryView}

/-! ## Tag texts and their spelling -/

/-- The text of a comment without category, or of a category before a comment. -/
def Spelled (tagData : String) : Prop :=
  tagData.toList.head? ≠ some '[' ∨
    ∃ category comment : String, category ≠ "" ∧ ']' ∉ category.toList ∧ tagData = "[" ++ category ++ "] " ++ comment

/-- The text parsed and put together again. -/
def respell (tagData : String) : String :=
  bookmarkTagData (parseTagData tagData).1 (parseTagData tagData).2

theorem respell_of_spelled {tagData : String} (spelled : Spelled tagData) : respell tagData = tagData := by
  rcases spelled with plain | ⟨category, comment, named, closed, rfl⟩
  · rw [respell, parseTagData]
    split
    · rename_i rest chars
      simp [chars] at plain
    · simp [bookmarkTagData]
  · have parsed := @parseTagData_legible ⟨"", 0, category, comment⟩ closed fun blank => named blank.1
    have written : bookmarkTagData category comment = "[" ++ category ++ "] " ++ comment := by
      rw [bookmarkTagData, if_neg named]
    dsimp only at parsed
    rw [respell, ← written, parsed]

theorem parseTagData_closed {tagData : String} {category after : List Char}
    (chars : tagData.toList = '[' :: (category ++ ']' :: after)) (closed : ']' ∉ category) :
    parseTagData tagData = (String.ofList category, String.ofList (after.drop 1)) := by
  rw [parseTagData, chars]
  simp only [splitFirst_append after closed]

theorem parseTagData_open {tagData : String} {rest : List Char} (chars : tagData.toList = '[' :: rest)
    (unclosed : splitFirst ']' rest = none) : parseTagData tagData = ("", "") := by
  rw [parseTagData, chars]
  simp only [unclosed]

/-- Only a text with an empty category is put together to another one that may be
misread again, and that one is shorter. -/
theorem respell_spelled_or_shorter (tagData : String) :
    Spelled (respell tagData) ∨ (respell tagData).toList.length < tagData.toList.length := by
  by_cases plain : tagData.toList.head? = some '['
  · obtain ⟨rest, chars⟩ := List.head?_eq_some_iff.mp plain
    cases split : splitFirst ']' rest with
    | none =>
      rw [respell, parseTagData_open chars split]
      exact .inl (.inl (by decide))
    | some parts =>
      obtain ⟨category, after⟩ := parts
      obtain ⟨rfl, closed⟩ := splitFirst_eq_some.mp split
      rw [respell, parseTagData_closed chars closed]
      by_cases blank : category = []
      · refine .inr ?_
        rw [blank, bookmarkTagData, if_pos String.ofList_nil, String.empty_append, String.toList_ofList, chars,
          List.length_drop, List.length_cons, List.length_append, List.length_cons]
        omega
      · have named : String.ofList category ≠ "" := by simpa using blank
        refine .inl (.inr ⟨String.ofList category, String.ofList (after.drop 1), named, ?_, ?_⟩)
        · rwa [String.toList_ofList]
        · exact congrArg (· ++ String.ofList (after.drop 1)) (if_neg named)
  · rw [respell_of_spelled (.inl plain)]
    exact .inl (.inl plain)

theorem respell_eq_self_iff {tagData : String} : respell tagData = tagData ↔ Spelled tagData := by
  refine ⟨fun same => ?_, respell_of_spelled⟩
  rcases respell_spelled_or_shorter tagData with spelled | shorter
  · rwa [same] at spelled
  · rw [same] at shorter
    omega

theorem reencode_eq (k : BookmarkKey) : reencode k = { k with tagData := respell k.tagData } := rfl

theorem reencode_eq_self_iff {k : BookmarkKey} : reencode k = k ↔ Spelled k.tagData := by
  rw [reencode_eq, ← respell_eq_self_iff]
  exact ⟨fun same => congrArg BookmarkKey.tagData same, fun same => by rw [same]⟩

/-! ## The next collection -/

theorem bookmarks_settled_iff_recorded (moved : CheckedIn state view next) :
    collectBookmarks next view = [] ↔ ∀ k, KeyRecorded state view k ↔ k ∈ currentKeys state view := by
  rw [List.eq_nil_iff_forall_not_mem]
  simp only [bookmark_found_again_iff moved]
  constructor
  · intro settled k
    constructor
    · intro recorded
      by_contra gone
      exact settled _ (.inr ⟨k, recorded, gone, rfl⟩)
    · intro tagged
      by_contra missing
      exact settled _ (.inl ⟨k, tagged, missing, rfl⟩)
  · rintro same b (⟨k, tagged, missing, _⟩ | ⟨k, recorded, gone, _⟩)
    · exact missing ((same k).mpr tagged)
    · exact gone ((same k).mp recorded)

/-- Every new tag is in the spelling it is recorded in, and every deleted key has
no text. -/
structure SpelledEdits (state : CheckinState) (view : BinaryView) : Prop where
  added : ∀ k ∈ currentKeys state view, k ∉ state.ghidraBookmarkKeys → Spelled k.tagData
  deleted : ∀ k ∈ state.ghidraBookmarkKeys, k ∉ currentKeys state view → k.tagData = ""

theorem recorded_iff_of_spelled (spelled : SpelledEdits state view) (k : BookmarkKey) :
    KeyRecorded state view k ↔ k ∈ currentKeys state view := by
  constructor
  · rintro ⟨known | ⟨n, tagged, fresh, rfl⟩, kept⟩
    · by_contra gone
      exact kept ⟨spelled.deleted k known gone, k, known, gone, rfl, rfl⟩
    · rw [reencode_eq_self_iff.mpr (spelled.added n tagged fresh)]
      exact tagged
  · intro tagged
    refine ⟨?_, ?_⟩
    · by_cases known : k ∈ state.ghidraBookmarkKeys
      · exact .inl known
      · exact .inr ⟨k, tagged, known, reencode_eq_self_iff.mpr (spelled.added k tagged known)⟩
    · rintro ⟨empty, d, known, gone, sameAddr, sameType⟩
      have same : d = k := by
        obtain ⟨addr, type, tagData⟩ := d
        have blank := spelled.deleted _ known gone
        simp only at sameAddr sameType blank
        rw [sameAddr, sameType, blank, ← empty]
      exact gone (same ▸ tagged)

/-- Each new key has to be recorded as the spelling of some new key. A misspelled
one comes from a longer misspelled one, so there is none of greatest length. -/
theorem spelled_of_recorded_iff (same : ∀ k, KeyRecorded state view k ↔ k ∈ currentKeys state view) :
    SpelledEdits state view := by
  constructor
  · let misspelled := (currentKeys state view).list.toFinset.filter fun k =>
      k ∉ state.ghidraBookmarkKeys ∧ reencode k ≠ k
    intro k tagged fresh
    by_contra wrong
    have present : k ∈ misspelled := by
      rw [Finset.mem_filter, List.mem_toFinset]
      exact ⟨tagged, fresh, fun fixed => wrong (reencode_eq_self_iff.mp fixed)⟩
    obtain ⟨longest, member, greatest⟩ :=
      misspelled.exists_max_image (fun k => k.tagData.toList.length) ⟨k, present⟩
    rw [Finset.mem_filter, List.mem_toFinset] at member
    obtain ⟨longestTagged, longestFresh, unfixed⟩ := member
    obtain ⟨source, sourceTagged, sourceFresh, written⟩ :=
      ((same longest).mpr longestTagged).1.resolve_left longestFresh
    have sourceUnfixed : reencode source ≠ source := by
      intro fixed
      exact unfixed (by rw [← written, fixed, fixed])
    have shorter : longest.tagData.toList.length < source.tagData.toList.length := by
      rcases respell_spelled_or_shorter source.tagData with spelled | shorter
      · refine absurd (reencode_eq_self_iff.mpr ?_) unfixed
        rw [← written]
        exact spelled
      · rw [← written]
        exact shorter
    have bound := greatest source (by
      rw [Finset.mem_filter, List.mem_toFinset]
      exact ⟨sourceTagged, sourceFresh, sourceUnfixed⟩)
    omega
  · intro k known gone
    by_contra text
    exact gone ((same k).mp ⟨.inl known, fun cleared => text cleared.1⟩)

/-- The bookmarks are settled exactly when no edit is recorded under another key. -/
theorem bookmarks_converge_iff (conn : GhidraConnection) (view : BinaryView) (comment : String)
    (send : Json → Except String Json)
    (succeeded : (conn.checkin view (conn.checkinState.collectCheckinChanges view) comment send).1.success =
      true) :
    (collectedAgain conn view comment send).bookmarkChanges = [] ↔ SpelledEdits conn.checkinState view := by
  have moved := checkedIn_of_success succeeded
  rw [collectedAgain, moved.collected]
  exact (bookmarks_settled_iff_recorded moved).trans ⟨spelled_of_recorded_iff, recorded_iff_of_spelled⟩

/-- One bookmark tag. -/
def taggedView (text : String) : BinaryView := { dataTags := [⟨0x402000, some "Ghidra: Note", text⟩] }

/-- A new bookmark with a category and a comment is sent once. -/
theorem new_bookmark_converges :
    let conn := connectionWith {}
    let view := taggedView "[todo] check the size"
    (conn.checkinState.collectCheckinChanges view).bookmarkChanges =
        [⟨.add, "Note", 0x402000, "todo", "check the size"⟩] ∧
      (collectedAgain conn view "note" (replyApplied [("bookmarks", 1)])).bookmarkChanges = [] := by
  have tags : (currentKeys (connectionWith {}).checkinState (taggedView "[todo] check the size")).list =
      [⟨0x402000, "Note", "[todo] check the size"⟩] := by decide +kernel
  refine ⟨by decide +kernel, (bookmarks_converge_iff _ _ _ _ (by decide +kernel)).mpr ⟨?_, ?_⟩⟩
  · intro k tagged _
    rw [← Roster.mem_list, tags, List.mem_singleton] at tagged
    rw [tagged]
    exact .inr ⟨"todo", "check the size", by decide, by decide, by decide⟩
  · intro k known _
    cases known

/-- A bookmark with a text whose tag was removed is deleted at the first check-in
and, applied or not, again at the second. -/
theorem removed_bookmark_deleted_again :
    let conn := connectionWith bookmarkedState
    let send := replyApplied [("bookmarks", 1)]
    let attempt := conn.checkin {} (conn.checkinState.collectCheckinChanges {}) "note" send
    attempt.1.success = true ∧ attempt.1.warned = [] ∧
      (collectedAgain conn {} "note" send).bookmarkChanges = [⟨.delete, "Note", 0x401000, "", ""⟩] := by
  decide +kernel

/-- A new tag with an empty category is recorded without it: the second check-in
adds it again, and deletes the recorded one. -/
example :
    (collectedAgain (connectionWith {}) (taggedView "[] text") "note" (replyApplied [("bookmarks", 1)])
      ).bookmarkChanges =
      [⟨.add, "Note", 0x402000, "", "text"⟩, ⟨.delete, "Note", 0x402000, "", ""⟩] := by
  decide +kernel

end GhidraBridge.BookmarkConvergence
