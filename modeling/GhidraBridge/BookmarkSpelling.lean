import GhidraBridge.BookmarkConvergence

/-! The text of a bookmark's tag as a code for a category and a comment. A text that
starts with a bracket is always read as if it began with a category, also where a
comment stands alone, and one whose bracket is never closed is read as nothing. -/
namespace GhidraBridge.BookmarkSpelling
open Lib Lib.Scan CheckinState BookmarkWriteback BookmarkConvergence

/-- The category can stand in brackets, and a comment without one does not start
with a bracket itself. -/
def Plain (category comment : String) : Prop :=
  ']' ∉ category.toList ∧ (category = "" → comment.toList.head? ≠ some '[')

/-- The category a text is read as holds no closing bracket: it ends at the first. -/
theorem closed_of_parse (tagData : String) : ']' ∉ (parseTagData tagData).1.toList := by
  unfold parseTagData
  split
  · rename_i rest chars
    cases split : splitFirst ']' rest with
    | none => simp
    | some parts =>
      obtain ⟨category, after⟩ := parts
      have closed := (splitFirst_eq_some.mp split).2
      rwa [String.toList_ofList]
  · simp

/-- A text is read as its own comment only where no bracket opens it. -/
theorem parse_eq_comment_iff {comment : String} :
    parseTagData comment = ("", comment) ↔ comment.toList.head? ≠ some '[' := by
  constructor
  · intro same bracket
    exact parseTagData_ne_self bracket (congrArg Prod.snd same)
  · intro plain
    have legible : Legible ⟨"", 0, "", comment⟩ := fun both => plain both.2
    have parsed := @parseTagData_legible ⟨"", 0, "", comment⟩ (by simp) legible
    rwa [show bookmarkTagData "" comment = comment from String.empty_append] at parsed

/-- What was written is read back exactly from plain parts. -/
theorem parse_written_iff {category comment : String} :
    parseTagData (bookmarkTagData category comment) = (category, comment) ↔ Plain category comment := by
  constructor
  · intro same
    have closed := closed_of_parse (bookmarkTagData category comment)
    rw [same] at closed
    refine ⟨closed, ?_⟩
    rintro rfl
    rw [show bookmarkTagData "" comment = comment from String.empty_append] at same
    exact parse_eq_comment_iff.mp same
  · rintro ⟨closed, alone⟩
    exact @parseTagData_legible ⟨"", 0, category, comment⟩ closed fun both => alone both.1 both.2

/-- An opened category that is never closed takes the whole text with it. -/
theorem unclosed_text_is_lost {tagData : String} (opened : tagData.toList.head? = some '[')
    (unclosed : ']' ∉ tagData.toList) : parseTagData tagData = ("", "") := by
  obtain ⟨rest, chars⟩ := List.head?_eq_some_iff.mp opened
  have missing : splitFirst ']' rest = none := splitFirst_eq_none.mpr fun member => unclosed <| by
    rw [chars]
    exact List.mem_cons_of_mem _ member
  exact parseTagData_open chars missing

/-- The two directions of the codec: parts are read back as they were written when
they are plain, and a text is written again as it was read when it has no category
or names one as it would be written. -/
theorem tag_codec_iff (category comment tagData : String) :
    (parseTagData (bookmarkTagData category comment) = (category, comment) ↔ Plain category comment) ∧
      (bookmarkTagData (parseTagData tagData).1 (parseTagData tagData).2 = tagData ↔ Spelled tagData) :=
  ⟨parse_written_iff, respell_eq_self_iff⟩

/-- A comment that opens a bracket is written as it is and read as nothing. -/
theorem bracketed_comment_is_lost :
    ¬((∀ category comment, parseTagData (bookmarkTagData category comment) = (category, comment)) ∧
      (∀ tagData, bookmarkTagData (parseTagData tagData).1 (parseTagData tagData).2 = tagData)) := by
  rintro ⟨readBack, -⟩
  exact absurd (readBack "" "[todo") (by decide)

end GhidraBridge.BookmarkSpelling
