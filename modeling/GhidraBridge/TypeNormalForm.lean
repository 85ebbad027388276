import Mathlib.Logic.Function.Iterate
import GhidraBridge.Lib.Strip
import GhidraBridge.TypeSpelling

/-! `canonicalTypeName` as a normal form. Outer blanks go before suffixes are cut and
before keywords are stripped, but nothing is trimmed behind a keyword, which takes
exactly one space with it: any other blank there stays in front of the name. -/
namespace GhidraBridge.TypeNormalForm
open Lib Lib.Scan Lib.Strip

/-! ## Stripping keywords -/

theorem elaborated_code : PrefixCode elaborated where
  solid := by decide
  apart := by decide

/-- The rounds end where no keyword stands in front. -/
theorem stripKeywords_run (text : List Char) :
    Bare elaborated (stripKeywords text) ∧ stripRound (stripKeywords text) = stripKeywords text ∧
      (∃ run, Run elaborated run ∧ text = run.flatten ++ stripKeywords text) ∧
      ∃ rounds, stripRound^[rounds] text = stripKeywords text := by
  induction text using stripKeywords.induct with
  | case1 text shorter ih =>
    obtain ⟨bare, fixed, ⟨run, listed, shape⟩, rounds, reached⟩ := ih
    obtain ⟨first, firstListed, cut⟩ := stripEach_run elaborated text
    rw [stripKeywords, if_pos shorter]
    refine ⟨bare, fixed, ⟨first ++ run, fun word member => ?_, ?_⟩, rounds + 1, reached⟩
    · exact (List.mem_append.mp member).elim (firstListed word) (listed word)
    · rw [List.flatten_append, List.append_assoc, ← shape]
      exact cut
  | case2 text kept =>
    obtain ⟨bare, fixed⟩ := bare_of_kept elaborated_code.solid kept
    rw [stripKeywords, if_neg kept]
    exact ⟨bare, fixed, ⟨[], by simp [Run], rfl⟩, 0, rfl⟩

/-- Whatever stands behind a run of keywords is left, if it starts with none itself. -/
theorem stripKeywords_eq {run : List (List Char)} {rest : List Char} (listed : Run elaborated run)
    (bare : Bare elaborated rest) : stripKeywords (run.flatten ++ rest) = rest := by
  obtain ⟨left, _, ⟨other, otherListed, shape⟩, _⟩ := stripKeywords_run (run.flatten ++ rest)
  exact (elaborated_code.rest_unique listed otherListed bare left shape).symm

theorem stripKeywords_of_bare {text : List Char} (bare : Bare elaborated text) : stripKeywords text = text :=
  @stripKeywords_eq [] text (by simp [Run]) bare

theorem stripKeywords_append {run : List (List Char)} (listed : Run elaborated run) (text : List Char) :
    stripKeywords (run.flatten ++ text) = stripKeywords text := by
  obtain ⟨bare, _, ⟨other, otherListed, shape⟩, _⟩ := stripKeywords_run text
  have both : Run elaborated (run ++ other) := fun word member =>
    (List.mem_append.mp member).elim (listed word) (otherListed word)
  have joined := stripKeywords_eq both bare
  rwa [List.flatten_append, List.append_assoc, ← shape] at joined

theorem length_stripKeywords_le (text : List Char) : (stripKeywords text).length ≤ text.length := by
  obtain ⟨_, _, ⟨run, _, shape⟩, _⟩ := stripKeywords_run text
  have total := congrArg List.length shape
  rw [List.length_append] at total
  omega

/-- A keyword starts with a letter and ends with its space. -/
theorem elaborated_ends {kw : List Char} (listed : kw ∈ elaborated) :
    (∃ first, kw.head? = some first ∧ isBlank first = false) ∧ kw.getLast? = some ' ' := by
  have table : ∀ kw ∈ elaborated, kw.head?.any (fun first => !isBlank first) = true ∧ kw.getLast? = some ' ' := by
    decide
  obtain ⟨starts, ends⟩ := table kw listed
  obtain ⟨first, here, solid⟩ := (Option.any_eq_true _ _).mp starts
  exact ⟨⟨first, here, by simpa using solid⟩, ends⟩

theorem bare_of_blank {c : Char} (blank : isBlank c = true) (rest : List Char) : Bare elaborated (c :: rest) := by
  rintro kw listed ⟨behind, shape⟩
  obtain ⟨⟨first, starts, solid⟩, -⟩ := elaborated_ends listed
  obtain ⟨more, rfl⟩ := List.head?_eq_some_iff.mp starts
  rw [List.cons_append, List.cons.injEq] at shape
  rw [shape.1, blank] at solid
  cases solid

/-! ## Folding aliases -/

theorem foldAlias_cases (text : List Char) :
    foldAlias text = text ∨ ∃ entry ∈ aliases, text = entry.1.toList ∧ foldAlias text = entry.2.toList := by
  unfold foldAlias
  cases found : aliases.lookup (String.ofList text) with
  | none => exact .inl rfl
  | some folded =>
    obtain ⟨before, after, shape, _⟩ := List.lookup_eq_some_iff.mp found
    refine .inr ⟨(String.ofList text, folded), by simp [shape], ?_, rfl⟩
    exact (String.toList_ofList).symm

/-- Neither an alias nor what it is folded into has a blank. -/
theorem foldAlias_of_blank {text : List Char} (blank : ∃ c ∈ foldAlias text, isBlank c = true) :
    foldAlias text = text := by
  rcases foldAlias_cases text with kept | ⟨entry, listed, -, folded⟩
  · exact kept
  · have table : ∀ entry ∈ aliases, ∀ c ∈ entry.2.toList, isBlank c = false := by decide
    obtain ⟨c, member, isOne⟩ := blank
    rw [folded] at member
    rw [table entry listed c member] at isOne
    cases isOne

theorem foldAlias_blank {text : List Char} (blank : ∃ c ∈ text, isBlank c = true) : foldAlias text = text := by
  rcases foldAlias_cases text with kept | ⟨entry, listed, same, -⟩
  · exact kept
  · have table : ∀ entry ∈ aliases, ∀ c ∈ entry.1.toList, isBlank c = false := by decide
    obtain ⟨c, member, isOne⟩ := blank
    rw [same] at member
    rw [table entry listed c member] at isOne
    cases isOne

/-! ## The name inside the suffixes -/

/-- The trimmed name that is left when all suffixes are cut. -/
def innermost (raw : List Char) : List Char :=
  match _cut : suffixed? (trim raw) with
  | some (base, _) => innermost base
  | none => trim raw
termination_by raw.length
decreasing_by exact suffixed_shorter _cut

/-- The suffixes as they are spelled, without the blanks around them. -/
def suffixes (raw : List Char) : List Char :=
  match _cut : suffixed? (trim raw) with
  | some (base, suffix) => suffixes base ++ suffix
  | none => []
termination_by raw.length
decreasing_by exact suffixed_shorter _cut

theorem innermost_of_whole {raw : List Char} (whole : suffixed? (trim raw) = none) :
    innermost raw = trim raw ∧ suffixes raw = [] := by
  rw [innermost, suffixes, whole]
  exact ⟨rfl, rfl⟩

theorem innermost_of_suffixed {raw base suffix : List Char} (cut : suffixed? (trim raw) = some (base, suffix)) :
    innermost raw = innermost base ∧ suffixes raw = suffixes base ++ suffix := by
  rw [innermost, suffixes, cut]
  exact ⟨rfl, rfl⟩

theorem ne_nil_of_suffixed {s base suffix : List Char} (cut : suffixed? s = some (base, suffix)) : s ≠ [] := by
  rintro rfl
  cases cut

theorem innermost_congr {first second : List Char} (same : trim first = trim second) :
    innermost first = innermost second ∧ suffixes first = suffixes second := by
  cases cut : suffixed? (trim first) with
  | none =>
    obtain ⟨inner, spelled⟩ := innermost_of_whole cut
    obtain ⟨other, otherSpelled⟩ := innermost_of_whole (same ▸ cut)
    rw [inner, spelled, other, otherSpelled, same]
    exact ⟨rfl, rfl⟩
  | some parts =>
    obtain ⟨inner, spelled⟩ := innermost_of_suffixed cut
    obtain ⟨other, otherSpelled⟩ := innermost_of_suffixed (same ▸ cut)
    rw [inner, spelled, other, otherSpelled]
    exact ⟨rfl, rfl⟩

/-- The shape of what is cut off. -/
theorem suffixed_shape {s base suffix : List Char} (cut : suffixed? s = some (base, suffix)) :
    suffix = ['*'] ∨ ∃ count, '[' ∉ count ∧ suffix = '[' :: (count ++ [']']) := by
  unfold suffixed? at cut
  split at cut
  · cases cut
    exact .inl rfl
  · split at cut
    · rename_i closed
      simp only [Option.map_eq_some_iff, Prod.mk.injEq, Prod.exists] at cut
      obtain ⟨before, after, found, rfl, rfl⟩ := cut
      obtain ⟨rfl, absent⟩ := splitLast_eq_some.mp found
      obtain ⟨plain, shape⟩ := count_of_closed closed absent
      exact .inr ⟨after.dropLast, plain, by rw [shape]⟩
    · cases cut

theorem canonicalChars_suffix {s base suffix : List Char} (cut : suffixed? s = some (base, suffix))
    (text : List Char) : canonicalChars (text ++ suffix) = canonicalChars text ++ suffix := by
  rcases suffixed_shape cut with rfl | ⟨count, plain, rfl⟩
  · exact canonicalChars_star text
  · exact canonicalChars_bracket text plain

theorem foldAlias_nil : foldAlias [] = [] := by decide

theorem stripKeywords_nil : stripKeywords [] = [] := stripKeywords_of_bare fun _ listed front =>
  elaborated_code.solid _ listed (List.prefix_nil.mp front)

/-- The canonical name is that of the innermost name, with the suffixes behind it. -/
theorem canonicalChars_innermost (raw : List Char) :
    canonicalChars raw = foldAlias (stripKeywords (innermost raw)) ++ suffixes raw := by
  induction raw using innermost.induct with
  | case1 raw base suffix cut ih =>
    obtain ⟨inner, spelled⟩ := innermost_of_suffixed cut
    have nonempty := ne_nil_of_suffixed cut
    rw [canonicalChars_eq, if_neg nonempty, cut, inner, spelled, ← List.append_assoc, ← ih]
  | case2 raw whole =>
    obtain ⟨inner, spelled⟩ := innermost_of_whole whole
    rw [canonicalChars_eq, whole, inner, spelled, List.append_nil]
    split
    · rename_i empty
      rw [empty, stripKeywords_nil, foldAlias_nil]
    · rfl

/-- Suffixes stay behind a canonical name. -/
theorem canonicalChars_suffixes (text raw : List Char) :
    canonicalChars (text ++ suffixes raw) = canonicalChars text ++ suffixes raw := by
  induction raw using suffixes.induct with
  | case1 raw base suffix cut ih =>
    rw [(innermost_of_suffixed cut).2, ← List.append_assoc, canonicalChars_suffix cut, ih, List.append_assoc]
  | case2 raw whole => rw [(innermost_of_whole whole).2, List.append_nil, List.append_nil]

theorem innermost_whole (raw : List Char) :
    trim (innermost raw) = innermost raw ∧ suffixed? (innermost raw) = none := by
  induction raw using innermost.induct with
  | case1 raw base suffix cut ih => rwa [(innermost_of_suffixed cut).1]
  | case2 raw whole =>
    rw [(innermost_of_whole whole).1]
    exact ⟨trim_trim raw, whole⟩

theorem suffixed_eq_none {s : List Char} :
    suffixed? s = none ↔ s.getLast? ≠ some '*' ∧ (s.getLast? = some ']' → '[' ∉ s) := by
  unfold suffixed?
  by_cases star : s.getLast? = some '*'
  · simp [star]
  · by_cases bracket : s.getLast? = some ']'
    · rw [if_neg star, if_pos bracket, Option.map_eq_none_iff, splitLast_eq_none]
      exact ⟨fun absent => ⟨star, fun _ => absent⟩, fun both => both.2 bracket⟩
    · rw [if_neg star, if_neg bracket]
      exact iff_of_true rfl ⟨star, fun closed => absurd closed bracket⟩

/-- What is behind a front without a bracket is cut as if it stood alone. -/
theorem suffixed_none_append {front back : List Char} (nonempty : back ≠ []) :
    (suffixed? (front ++ back) = none → suffixed? back = none) ∧
      ('[' ∉ front → suffixed? back = none → suffixed? (front ++ back) = none) := by
  simp only [suffixed_eq_none, List.getLast?_append_of_ne_nil _ nonempty, List.mem_append]
  constructor
  · rintro ⟨star, bracket⟩
    exact ⟨star, fun closed member => bracket closed (.inr member)⟩
  · rintro plain ⟨star, bracket⟩
    exact ⟨star, fun closed member => member.elim plain (bracket closed)⟩

/-! ## Canonical names again -/

/-- A run of keywords, each with its space, and one more blank in front of the name. -/
def Doubled (name : List Char) : Prop :=
  ∃ run c rest, Run elaborated run ∧ isBlank c = true ∧ name = run.flatten ++ c :: rest

theorem doubled_iff (name : List Char) :
    Doubled name ↔ ∃ c rest, isBlank c = true ∧ stripKeywords name = c :: rest := by
  constructor
  · rintro ⟨run, c, rest, listed, blank, rfl⟩
    exact ⟨c, rest, blank, stripKeywords_eq listed (bare_of_blank blank rest)⟩
  · rintro ⟨c, rest, blank, left⟩
    obtain ⟨_, _, ⟨run, listed, shape⟩, _⟩ := stripKeywords_run name
    rw [left] at shape
    exact ⟨run, c, rest, listed, blank, shape⟩

/-- A trimmed name without suffixes and keywords is only folded. -/
theorem canonicalChars_plain {name : List Char} (trimmed : trim name = name) (whole : suffixed? name = none)
    (bare : Bare elaborated name) : canonicalChars name = foldAlias name := by
  rw [canonicalChars_eq, trimmed, whole]
  split
  · rename_i empty
    rw [empty, foldAlias_nil]
  · dsimp only
    rw [stripKeywords_of_bare bare]

/-- What an alias stands for is canonical. -/
theorem canonicalChars_alias {entry : String × String} (listed : entry ∈ aliases) :
    canonicalChars entry.2.toList = entry.2.toList := by
  have table : ∀ entry ∈ aliases, trim entry.2.toList = entry.2.toList ∧ suffixed? entry.2.toList = none ∧
      (∀ kw ∈ elaborated, kw.isPrefixOf entry.2.toList = false) ∧ foldAlias entry.2.toList = entry.2.toList := by
    decide
  obtain ⟨trimmed, whole, bare, kept⟩ := table entry listed
  have plain : Bare elaborated entry.2.toList := fun kw member front => by
    have found := List.isPrefixOf_iff_prefix.mpr front
    rw [bare kw member] at found
    cases found
  rw [canonicalChars_plain trimmed whole plain, kept]

theorem length_innermost_le (raw : List Char) :
    (innermost raw).length + (suffixes raw).length ≤ (trim raw).length := by
  induction raw using innermost.induct with
  | case1 raw base suffix cut ih =>
    obtain ⟨inner, spelled⟩ := innermost_of_suffixed cut
    have total := congrArg List.length (suffixed_append cut).1
    have shorter := length_trim_le base
    rw [List.length_append] at total
    rw [inner, spelled, List.length_append]
    omega
  | case2 raw whole =>
    rw [(innermost_of_whole whole).1, (innermost_of_whole whole).2]
    exact Nat.le_refl _

/-- No name with a blank in front is canonical. -/
theorem canonicalChars_ne_of_blank {c : Char} (blank : isBlank c = true) (rest : List Char) :
    canonicalChars (c :: rest) ≠ c :: rest := by
  intro same
  rw [canonicalChars_innermost] at same
  rcases foldAlias_cases (stripKeywords (innermost (c :: rest))) with kept | ⟨entry, listed, -, folded⟩
  · have total := congrArg List.length same
    have inner := length_innermost_le (c :: rest)
    have stripped := length_stripKeywords_le (innermost (c :: rest))
    have trimmed : trim (c :: rest) = trim rest := by rw [trim, List.dropWhile_cons_of_pos blank, trim]
    have shorter := length_trim_le rest
    rw [kept, List.length_append, List.length_cons] at total
    rw [trimmed] at inner
    omega
  · have table : ∀ entry ∈ aliases, ∃ first, entry.2.toList.head? = some first ∧ isBlank first = false := by
      simp only [← Option.any_eq_true, ← Bool.not_eq_true']
      decide
    obtain ⟨first, starts, solid⟩ := table entry listed
    obtain ⟨more, shape⟩ := List.head?_eq_some_iff.mp starts
    rw [folded, shape, List.cons_append, List.cons.injEq] at same
    rw [same.1, blank] at solid
    cases solid

section
variable {name : List Char} (trimmed : trim name = name)
include trimmed

/-- What is left of a trimmed name behind its keywords ends as the name does. -/
theorem stripKeywords_ends (nonempty : name ≠ []) :
    ∃ last, (stripKeywords name).getLast? = some last ∧ isBlank last = false := by
  obtain ⟨_, _, ⟨run, listed, shape⟩, _⟩ := stripKeywords_run name
  rcases trim_cases name with blank | ⟨first, last, _, ends, _, solid⟩
  · exact absurd (trimmed.symm.trans blank) nonempty
  · rw [trimmed] at ends
    refine ⟨last, ?_, solid⟩
    have total := ends
    rw [shape, List.getLast?_append] at total
    cases left : (stripKeywords name).getLast? with
    | some other =>
      rw [left] at total
      exact total
    | none =>
      -- then the name would end with a keyword, which ends with a space
      rw [left, Option.none_or] at total
      rcases List.eq_nil_or_concat run with rfl | ⟨front, kw, rfl⟩
      · simp at total
      · have here := (elaborated_ends (listed kw (by simp))).2
        rw [List.concat_eq_append, List.flatten_append, List.flatten_singleton, List.getLast?_append, here] at total
        cases total
        cases solid

/-- A canonical name is canonical unless a blank was left in front of it. -/
theorem canonical_again_iff (whole : suffixed? name = none) :
    canonicalChars (foldAlias (stripKeywords name)) = foldAlias (stripKeywords name) ↔ ¬Doubled name := by
  obtain ⟨bare, _, ⟨run, listed, shape⟩, _⟩ := stripKeywords_run name
  rw [doubled_iff]
  by_cases nonempty : name = []
  · subst nonempty
    rw [stripKeywords_nil, foldAlias_nil, canonicalChars_nil]
    exact iff_of_true rfl (by simp)
  obtain ⟨last, ends, solidEnd⟩ := stripKeywords_ends trimmed nonempty
  cases left : stripKeywords name with
  | nil => simp [left] at ends
  | cons c rest =>
    rw [left] at shape
    have cut : suffixed? (c :: rest) = none := (suffixed_none_append (List.cons_ne_nil c rest)).1 (shape ▸ whole)
    by_cases blank : isBlank c = true
    · have kept : foldAlias (c :: rest) = c :: rest := foldAlias_blank ⟨c, List.mem_cons_self, blank⟩
      refine iff_of_false ?_ (not_not.mpr ⟨c, rest, blank, rfl⟩)
      rw [kept]
      exact canonicalChars_ne_of_blank blank rest
    · have solid : trim (c :: rest) = c :: rest :=
        trim_of_solid rfl (left ▸ ends) (Bool.eq_false_iff.mpr blank) solidEnd
      have again : canonicalChars (c :: rest) = foldAlias (c :: rest) := canonicalChars_plain solid cut (left ▸ bare)
      refine iff_of_true ?_ ?_
      · rcases foldAlias_cases (c :: rest) with kept | ⟨entry, listed, -, folded⟩
        · rw [kept] at again ⊢
          exact again
        · rw [folded]
          exact canonicalChars_alias listed
      · rintro ⟨other, more, isOne, same⟩
        rw [List.cons.injEq] at same
        exact blank (same.1 ▸ isOne)

end

theorem canonicalChars_idempotent_iff (raw : List Char) :
    canonicalChars (canonicalChars raw) = canonicalChars raw ↔ ¬Doubled (innermost raw) := by
  obtain ⟨trimmed, whole⟩ := innermost_whole raw
  rw [← canonical_again_iff trimmed whole, canonicalChars_innermost raw, canonicalChars_suffixes,
    List.append_cancel_right_eq]

/-! ## Blanks -/

theorem canonicalChars_surrounded (before after : Gap) (raw : List Char) :
    canonicalChars (before.text ++ raw ++ after.text) = canonicalChars raw :=
  canonicalChars_congr (trim_surrounded raw before.blank after.blank)

theorem canonicalChars_before_star (raw : List Char) (gap : Gap) :
    canonicalChars (raw ++ gap.text ++ ['*']) = canonicalChars (raw ++ ['*']) := by
  rw [canonicalChars_star, canonicalChars_star, canonicalChars_gap]

/-- A cut is the same behind a longer front. -/
theorem suffixed_append_front {back base suffix : List Char} (front : List Char)
    (cut : suffixed? back = some (base, suffix)) : suffixed? (front ++ back) = some (front ++ base, suffix) := by
  obtain ⟨rfl, nonempty⟩ := suffixed_append cut
  have filled : base ++ suffix ≠ [] := fun empty => nonempty (List.append_eq_nil_iff.mp empty).2
  unfold suffixed? at cut ⊢
  rw [List.getLast?_append_of_ne_nil _ filled]
  by_cases star : (base ++ suffix).getLast? = some '*'
  · rw [if_pos star, Option.some.injEq, Prod.mk.injEq] at cut ⊢
    exact ⟨by rw [List.dropLast_append_of_ne_nil filled, cut.1], cut.2⟩
  · rw [if_neg star] at cut ⊢
    by_cases bracket : (base ++ suffix).getLast? = some ']'
    · rw [if_pos bracket, Option.map_eq_some_iff] at cut ⊢
      obtain ⟨⟨before, after⟩, found, same⟩ := cut
      obtain ⟨rfl, rfl⟩ := Prod.mk.inj same
      obtain ⟨shape, absent⟩ := splitLast_eq_some.mp found
      refine ⟨(front ++ before, after), splitLast_eq_some.mpr ⟨?_, absent⟩, rfl⟩
      rw [shape, List.append_assoc]
    · rw [if_neg bracket] at cut
      cases cut

/-- A text that starts and ends with no blank and has nothing to cut at. -/
structure Lead (lead : List Char) : Prop where
  starts : ∃ first, lead.head? = some first ∧ isBlank first = false
  ends : ∃ last, lead.getLast? = some last ∧ isBlank last = false ∧ last ≠ '*' ∧ last ≠ ']'
  plain : '[' ∉ lead

section
variable {lead : List Char} (isLead : Lead lead) (gap : Gap)
include isLead

theorem trim_lead : trim (lead ++ gap.text) = lead := by
  obtain ⟨first, starts, solid⟩ := isLead.starts
  obtain ⟨last, ends, solidEnd, -, -⟩ := isLead.ends
  rw [trim_append_blanks _ gap.blank, trim_of_solid starts ends solid solidEnd]

theorem trim_behind {rest : List Char} (front : ∀ c, rest.head? = some c → isBlank c = false)
    (nonempty : trim rest ≠ []) : trim (lead ++ gap.text ++ rest) = lead ++ gap.text ++ trim rest := by
  obtain ⟨first, starts, solid⟩ := isLead.starts
  rcases trim_cases rest with empty | ⟨_, last, _, ends, _, solidEnd⟩
  · exact absurd empty nonempty
  · obtain ⟨blanks, blank, shape⟩ := rtrim_split rest
    rw [← trim_eq_rtrim front] at shape
    have whole : (lead ++ gap.text ++ trim rest).head? = some first := by
      rw [List.append_assoc, List.head?_append, starts]
      rfl
    have final : (lead ++ gap.text ++ trim rest).getLast? = some last := by
      rw [List.getLast?_append_of_ne_nil _ nonempty, ends]
    calc trim (lead ++ gap.text ++ rest)
      _ = trim (lead ++ gap.text ++ trim rest ++ blanks) := by rw [List.append_assoc _ (trim rest), ← shape]
      _ = trim (lead ++ gap.text ++ trim rest) := trim_append_blanks _ blank
      _ = lead ++ gap.text ++ trim rest := trim_of_solid whole final solid solidEnd

/-- A lead and blanks in front of a name stay in front of what is inside its suffixes. -/
theorem innermost_behind {rest : List Char} (front : ∀ c, rest.head? = some c → isBlank c = false) :
    innermost (lead ++ gap.text ++ rest) =
        (if innermost rest = [] then lead else lead ++ gap.text ++ innermost rest) ∧
      suffixes (lead ++ gap.text ++ rest) = suffixes rest := by
  have plain : '[' ∉ lead ++ gap.text := fun member => by
    rcases List.mem_append.mp member with inLead | inGap
    · exact isLead.plain inLead
    · exact absurd (gap.blank _ inGap) (by decide)
  induction rest using innermost.induct with
  | case1 rest base suffix cut ih =>
    have nonempty := ne_nil_of_suffixed cut
    have trimmed := trim_behind isLead gap front nonempty
    have longer := suffixed_append_front (lead ++ gap.text) cut
    rw [← trimmed] at longer
    have baseFront (c : Char) (starts : base.head? = some c) : isBlank c = false := by
      obtain ⟨blanks, _, shape⟩ := rtrim_split rest
      rw [← trim_eq_rtrim front, (suffixed_append cut).1] at shape
      refine front c ?_
      rw [shape, List.append_assoc, List.head?_append, starts]
      rfl
    obtain ⟨inner, spelled⟩ := innermost_of_suffixed cut
    obtain ⟨longInner, longSpelled⟩ := innermost_of_suffixed longer
    obtain ⟨same, kept⟩ := ih baseFront
    rw [longInner, longSpelled, inner, spelled, kept]
    exact ⟨same, rfl⟩
  | case2 rest whole =>
    obtain ⟨inner, spelled⟩ := innermost_of_whole whole
    rw [inner, spelled]
    by_cases empty : trim rest = []
    · have nothing : rest = [] := by
        cases rest with
        | nil => rfl
        | cons c more =>
          rw [trim_eq_rtrim front] at empty
          have blank := List.rdropWhile_eq_nil_iff.mp empty c List.mem_cons_self
          rw [front c rfl] at blank
          cases blank
      obtain ⟨last, ends, _, noStar, noBracket⟩ := isLead.ends
      have cut : suffixed? lead = none := suffixed_eq_none.mpr
        ⟨fun star => noStar (Option.some.inj (ends.symm.trans star)),
          fun bracket => absurd (Option.some.inj (ends.symm.trans bracket)) noBracket⟩
      subst nothing
      rw [List.append_nil, if_pos empty]
      rw [← trim_lead isLead gap] at cut
      obtain ⟨longInner, longSpelled⟩ := innermost_of_whole cut
      rw [longInner, longSpelled, trim_lead isLead gap]
      exact ⟨rfl, rfl⟩
    · have trimmed := trim_behind isLead gap front empty
      have cut := (suffixed_none_append empty).2 plain whole
      rw [← trimmed] at cut
      obtain ⟨longInner, longSpelled⟩ := innermost_of_whole cut
      rw [longInner, longSpelled, if_neg empty, trimmed]
      exact ⟨rfl, rfl⟩

end

/-! ## Blanks behind a keyword -/

section
variable {run : List (List Char)} {kw : List Char} (listed : Run elaborated run) (keyword : kw ++ [' '] ∈ elaborated)

include keyword in
theorem keyword_ends : (∃ first, kw.head? = some first ∧ isBlank first = false) ∧
    (∃ last, kw.getLast? = some last ∧ isBlank last = false ∧ last ≠ '*' ∧ last ≠ ']') := by
  have table : ∀ word ∈ elaborated, word.dropLast.head?.any (fun first => !isBlank first) = true ∧
      word.dropLast.getLast?.any (fun last => !isBlank last && last != '*' && last != ']') = true := by
    decide
  obtain ⟨starts, ends⟩ := table _ keyword
  rw [List.dropLast_concat] at starts ends
  obtain ⟨first, here, solid⟩ := (Option.any_eq_true _ _).mp starts
  obtain ⟨last, there, apart⟩ := (Option.any_eq_true _ _).mp ends
  simp only [Bool.and_eq_true, Bool.not_eq_true', bne_iff_ne] at apart
  exact ⟨⟨first, here, by simpa using solid⟩, last, there, apart.1.1, apart.1.2, apart.2⟩

include listed keyword in
theorem keywords_lead : Lead (run.flatten ++ kw) where
  starts := by
    obtain ⟨first, here, solid⟩ := (keyword_ends keyword).1
    cases run with
    | nil => exact ⟨first, here, solid⟩
    | cons word more =>
      obtain ⟨⟨front, starts, solid⟩, -⟩ := elaborated_ends (listed word List.mem_cons_self)
      refine ⟨front, ?_, solid⟩
      rw [List.flatten_cons, List.append_assoc, List.head?_append, starts]
      rfl
  ends := by
    obtain ⟨last, there, apart⟩ := (keyword_ends keyword).2
    refine ⟨last, ?_, apart⟩
    rw [List.getLast?_append, there]
    rfl
  plain := by
    have table : ∀ word ∈ elaborated, '[' ∉ word := by decide
    intro member
    rcases List.mem_append.mp member with inRun | inKeyword
    · obtain ⟨word, inside, here⟩ := List.mem_flatten.mp inRun
      exact table word (listed word inside) here
    · exact table _ keyword (List.mem_append_left _ inKeyword)

include keyword in
/-- A keyword takes a space with it, and no other blank. -/
theorem bare_of_tab (rest : List Char) : Bare elaborated (kw ++ '\t' :: rest) := by
  have table : ∀ word ∈ elaborated, ∀ other ∈ elaborated,
      ¬other <+: word.dropLast ++ ['\t'] ∧ ¬word.dropLast ++ ['\t'] <+: other := by
    decide
  intro other otherListed front
  have apart := table _ keyword other otherListed
  rw [List.dropLast_concat] at apart
  have tabbed : kw ++ ['\t'] <+: kw ++ '\t' :: rest := ⟨rest, by simp⟩
  exact (List.prefix_or_prefix_of_prefix front tabbed).elim apart.1 apart.2

/-- What a keyword leaves of the blanks behind it and a name. -/
def leftBehind (kw blanks name : List Char) : List Char :=
  if blanks = [' '] then foldAlias (stripKeywords name)
  else if blanks.head? = some ' ' then blanks.tail ++ name
  else kw ++ blanks ++ name

include listed keyword in
theorem stripped_behind (gap : Gap) (some : gap.text ≠ []) (name : List Char) :
    foldAlias (stripKeywords (run.flatten ++ kw ++ gap.text ++ name)) = leftBehind kw gap.text name := by
  have spaced : Run elaborated (run ++ [kw ++ [' ']]) := fun word member =>
    (List.mem_append.mp member).elim (listed word) fun last => List.mem_singleton.mp last ▸ keyword
  obtain ⟨blanks, blank⟩ := gap
  cases blanks with
  | nil => exact absurd rfl some
  | cons c more =>
    have kinds : c = ' ' ∨ c = '\t' := by simpa [isBlank] using blank c List.mem_cons_self
    rcases kinds with rfl | rfl
    · have shape : run.flatten ++ kw ++ (' ' :: more) ++ name = (run ++ [kw ++ [' ']]).flatten ++ (more ++ name) := by
        simp
      dsimp only
      rw [shape]
      cases more with
      | nil => rw [stripKeywords_append spaced, leftBehind, if_pos rfl, List.nil_append]
      | cons next more =>
        have isOne : isBlank next = true := blank next (by simp)
        have left : stripKeywords ((run ++ [kw ++ [' ']]).flatten ++ (next :: more ++ name)) = next :: more ++ name :=
          stripKeywords_eq spaced (bare_of_blank isOne _)
        rw [left, leftBehind, if_neg (by simp), if_pos (by simp)]
        exact foldAlias_blank ⟨next, by simp, isOne⟩
    · have shape : run.flatten ++ kw ++ ('\t' :: more) ++ name = run.flatten ++ (kw ++ '\t' :: (more ++ name)) := by
        simp
      dsimp only
      rw [shape, stripKeywords_eq listed (bare_of_tab keyword _), leftBehind, if_neg (by simp), if_neg (by simp),
        foldAlias_blank ⟨'\t', by simp, rfl⟩]
      simp

/-- More than one space, or another blank, is left in front of the name or behind the keyword. -/
theorem leftBehind_wide {gap : Gap} (some : gap.text ≠ []) (wide : gap.text ≠ [' ']) (name : List Char) :
    (∃ c ∈ leftBehind kw gap.text name, isBlank c = true) ∧ name.length < (leftBehind kw gap.text name).length := by
  rw [leftBehind, if_neg wide]
  obtain ⟨blanks, blank⟩ := gap
  dsimp only at some wide ⊢
  by_cases space : blanks.head? = Option.some ' '
  · obtain ⟨more, rfl⟩ := List.head?_eq_some_iff.mp space
    rw [if_pos space]
    cases more with
    | nil => exact absurd rfl wide
    | cons next more =>
      refine ⟨⟨next, by simp, blank next (by simp)⟩, ?_⟩
      simp only [List.tail_cons, List.length_append, List.length_cons]
      omega
  · obtain ⟨c, more, rfl⟩ := List.exists_cons_of_ne_nil some
    rw [if_neg space]
    refine ⟨⟨c, by simp, blank c List.mem_cons_self⟩, ?_⟩
    simp only [List.length_append, List.length_cons]
    omega

/-- One space is stripped, and leaves less than anything else. -/
theorem leftBehind_space_ne {gap : Gap} (some : gap.text ≠ []) (wide : gap.text ≠ [' ']) (name : List Char) :
    foldAlias (stripKeywords name) ≠ leftBehind kw gap.text name := by
  intro same
  obtain ⟨blank, longer⟩ := @leftBehind_wide kw gap some wide name
  rw [← same] at blank longer
  rw [foldAlias_of_blank blank] at longer
  exact absurd (length_stripKeywords_le name) (Nat.not_le.mpr longer)

include keyword in
theorem blank_ne_keyword {gap : Gap} (wide : gap.text ≠ [' ']) (space : gap.text.head? = some ' ')
    (name rest : List Char) : gap.text.tail ++ name ≠ kw ++ rest ++ name := by
  obtain ⟨first, starts, solid⟩ := (keyword_ends keyword).1
  obtain ⟨letters, rfl⟩ := List.head?_eq_some_iff.mp starts
  obtain ⟨blanks, blank⟩ := gap
  obtain ⟨more, rfl⟩ := List.head?_eq_some_iff.mp space
  cases more with
  | nil => exact absurd rfl wide
  | cons next more =>
    intro same
    have isOne := blank next (by simp)
    have front : next = first := (List.cons.inj same).1
    rw [front, solid] at isOne
    cases isOne

include keyword in
/-- The blanks can be read off what is left. -/
theorem leftBehind_injective {first second : Gap} (some : first.text ≠ []) (other : second.text ≠ [])
    (name : List Char) :
    leftBehind kw first.text name = leftBehind kw second.text name ↔ first.text = second.text := by
  refine ⟨fun same => ?_, fun same => by rw [same]⟩
  by_cases one : first.text = [' ']
  · by_contra apart
    rw [leftBehind, if_pos one] at same
    exact leftBehind_space_ne other (fun two => apart (one.trans two.symm)) name same
  by_cases two : second.text = [' ']
  · have back := same.symm
    rw [leftBehind, if_pos two] at back
    exact absurd back (leftBehind_space_ne some one name)
  rw [leftBehind, leftBehind, if_neg one, if_neg two] at same
  by_cases space : first.text.head? = Option.some ' ' <;> by_cases otherSpace : second.text.head? = Option.some ' '
  · rw [if_pos space, if_pos otherSpace, List.append_cancel_right_eq] at same
    rw [List.eq_cons_of_mem_head? space, List.eq_cons_of_mem_head? otherSpace, same]
  · rw [if_pos space, if_neg otherSpace] at same
    exact absurd same (blank_ne_keyword keyword one space name _)
  · rw [if_neg space, if_pos otherSpace] at same
    exact absurd same.symm (blank_ne_keyword keyword two otherSpace name _)
  · rwa [if_neg space, if_neg otherSpace, List.append_cancel_right_eq, List.append_cancel_left_eq] at same

/-- The blanks that go on into the rest. -/
def widened (gap : Gap) (rest : List Char) : Gap where
  text := gap.text ++ rest.takeWhile isBlank
  blank := fun c member => (List.mem_append.mp member).elim (gap.blank c) List.mem_takeWhile_imp

include listed keyword in
theorem canonicalChars_behind (gap : Gap) (some : gap.text ≠ []) (rest : List Char) :
    canonicalChars (run.flatten ++ kw ++ gap.text ++ rest) =
      (if innermost rest = [] then foldAlias (stripKeywords (run.flatten ++ kw))
        else leftBehind kw (widened gap rest).text (innermost rest)) ++ suffixes rest := by
  have shape : run.flatten ++ kw ++ gap.text ++ rest =
      run.flatten ++ kw ++ (widened gap rest).text ++ rest.dropWhile isBlank := by
    rw [widened, List.append_assoc _ _ (rest.dropWhile isBlank), List.append_assoc gap.text,
      List.takeWhile_append_dropWhile, List.append_assoc _ gap.text]
  have front (c : Char) (starts : (rest.dropWhile isBlank).head? = Option.some c) : isBlank c = false := by
    have solid := List.head?_dropWhile_not isBlank rest
    rw [starts] at solid
    exact solid
  have wide : (widened gap rest).text ≠ [] := fun empty => some (List.append_eq_nil_iff.mp empty).1
  obtain ⟨inner, spelled⟩ := innermost_behind (keywords_lead listed keyword) (widened gap rest) front
  obtain ⟨sameInner, sameSuffixes⟩ := innermost_congr (trim_dropWhile rest)
  rw [shape, canonicalChars_innermost, inner, spelled, sameInner, sameSuffixes]
  split
  · rfl
  · rw [stripped_behind listed keyword _ wide]

include listed keyword in
/-- Other blanks behind a keyword give another name, unless no name follows. -/
theorem canonicalChars_behind_iff (first second : Gap) (some : first.text ≠ []) (other : second.text ≠ [])
    (rest : List Char) :
    canonicalChars (run.flatten ++ kw ++ first.text ++ rest) =
        canonicalChars (run.flatten ++ kw ++ second.text ++ rest) ↔
      first.text = second.text ∨ innermost rest = [] := by
  have wide (gap : Gap) (filled : gap.text ≠ []) : (widened gap rest).text ≠ [] := fun empty =>
    filled (List.append_eq_nil_iff.mp empty).1
  rw [canonicalChars_behind listed keyword first some, canonicalChars_behind listed keyword second other,
    List.append_cancel_right_eq]
  by_cases empty : innermost rest = []
  · rw [if_pos empty, if_pos empty]
    exact iff_of_true rfl (.inr empty)
  · rw [if_neg empty, if_neg empty, leftBehind_injective keyword (wide first some) (wide second other),
      or_iff_left empty]
    exact Iff.of_eq (List.append_cancel_right_eq ..)

end

/-- Where `canonicalTypeName` is a normal form. It always ends, and blanks at the ends
and before a star never matter. A second application changes nothing unless a blank
is left in front of the innermost name, and two runs of blanks behind a leading
keyword give one name only if they are the same or nothing but suffixes follows. -/
theorem canonical_form_iff (raw : String) (first second : Gap) :
    (WellFounded fun base raw : List Char => ∃ suffix, suffixed? (trim raw) = some (base, suffix)) ∧
    (∃ rounds, stripRound^[rounds] raw.toList = stripKeywords raw.toList) ∧
    stripRound (stripKeywords raw.toList) = stripKeywords raw.toList ∧
    (canonicalTypeName (canonicalTypeName raw) = canonicalTypeName raw ↔ ¬Doubled (innermost raw.toList)) ∧
    canonicalChars (first.text ++ raw.toList ++ second.text) = canonicalChars raw.toList ∧
    canonicalChars (raw.toList ++ first.text ++ ['*']) = canonicalChars (raw.toList ++ ['*']) ∧
    ∀ run kw, Run elaborated run → kw ++ [' '] ∈ elaborated → first.text ≠ [] → second.text ≠ [] →
      (canonicalChars (run.flatten ++ kw ++ first.text ++ raw.toList) =
          canonicalChars (run.flatten ++ kw ++ second.text ++ raw.toList) ↔
        first.text = second.text ∨ innermost raw.toList = []) := by
  obtain ⟨_, fixed, _, rounds⟩ := stripKeywords_run raw.toList
  refine ⟨?_, rounds, fixed, ?_, canonicalChars_surrounded first second _, canonicalChars_before_star _ first, ?_⟩
  · exact Subrelation.wf (fun ⟨_, cut⟩ => suffixed_shorter cut) (measure List.length).wf
  · rw [← canonicalChars_idempotent_iff, canonicalTypeName, canonicalTypeName, String.toList_ofList, String.ofList_inj]
  · intro run kw listed keyword some other
    exact canonicalChars_behind_iff listed keyword first second some other raw.toList

/-- Two spaces behind a keyword leave one in front of the name, and the next
application takes it off. -/
theorem doubled_space_is_kept :
    canonicalTypeName "struct  Foo" = " Foo" ∧
      canonicalTypeName (canonicalTypeName "struct  Foo") ≠ canonicalTypeName "struct  Foo" ∧
      canonicalTypeName "struct  Foo" ≠ canonicalTypeName "struct Foo" := by
  decide +kernel

end GhidraBridge.TypeNormalForm
