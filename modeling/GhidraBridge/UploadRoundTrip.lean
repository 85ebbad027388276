import GhidraBridge.Json
import GhidraBridge.UploadAnalysis

/-! What the script reads of an uploaded analysis. Each line carries its record unless a
text holds a carriage return or a null character, or a name holds a place marker that
takes the function comment in. -/
namespace GhidraBridge.UploadAnalysis
open Lib Lib.Text Lib.Template

/-! ## One text -/

/-- A code for the three characters that are escaped; the others stand for themselves. -/
def coded (backslash tab newline : List Char) (c : Char) : List Char :=
  if c = '\\' then backslash else if c = '\t' then tab else if c = '\n' then newline else [c]

def escapeChar : Char → List Char := coded ['\\', '\\'] ['\\', 't'] ['\\', 'n']

theorem coded_other {backslash tab newline : List Char} {c : Char} (notBackslash : c ≠ '\\') (notTab : c ≠ '\t')
    (notNewline : c ≠ '\n') : coded backslash tab newline c = [c] := by
  rw [coded, if_neg notBackslash, if_neg notTab, if_neg notNewline]

/-- A property of every character's code is one of the three codes and of the others. -/
theorem coded_cases {P : Char → Prop} (backslash : P '\\') (tab : P '\t') (newline : P '\n')
    (other : ∀ c, c ≠ '\\' → c ≠ '\t' → c ≠ '\n' → P c) (c : Char) : P c := by
  by_cases notBackslash : c = '\\'
  · exact notBackslash ▸ backslash
  · by_cases notTab : c = '\t'
    · exact notTab ▸ tab
    · by_cases notNewline : c = '\n'
      · exact notNewline ▸ newline
      · exact other c notBackslash notTab notNewline

theorem escape_eq (text : List Char) : escape text = text.flatMap escapeChar := by
  unfold escape
  rw [replaceAll_char, replaceAll_char, replaceAll_char, List.flatMap_assoc, List.flatMap_assoc]
  apply List.flatMap_congr
  intro c _
  induction c using coded_cases with
  | backslash => rfl
  | tab => rfl
  | newline => rfl
  | other c notBackslash notTab notNewline =>
    rw [escapeChar, coded_other notBackslash notTab notNewline]
    simp [notBackslash, notTab, notNewline]

/-- One step of reading: the code that is the pattern is replaced. -/
theorem replaceAll_coded {second : Char} {backslash tab newline : List Char} (replacement text : List Char)
    (onBackslash : IsCode '\\' second backslash) (onTab : IsCode '\\' second tab)
    (onNewline : IsCode '\\' second newline) :
    replaceAll ['\\', second] replacement (text.flatMap (coded backslash tab newline)) =
      text.flatMap (coded (if backslash = ['\\', second] then replacement else backslash)
        (if tab = ['\\', second] then replacement else tab)
        (if newline = ['\\', second] then replacement else newline)) := by
  have codes (c : Char) : IsCode '\\' second (coded backslash tab newline c) := by
    induction c using coded_cases with
    | backslash => exact onBackslash
    | tab => exact onTab
    | newline => exact onNewline
    | other c notBackslash notTab notNewline =>
      rw [coded_other notBackslash notTab notNewline]
      exact .inr (.inl ⟨c, rfl, notBackslash⟩)
  rw [replaceAll_flatMap codes]
  apply List.flatMap_congr
  intro c _
  induction c using coded_cases with
  | backslash => rfl
  | tab => rfl
  | newline => rfl
  | other c notBackslash notTab notNewline =>
    rw [coded_other notBackslash notTab notNewline, coded_other notBackslash notTab notNewline]
    simp

/-- The null character comes back as a backslash. -/
def readChar (c : Char) : Char := if c = '\x00' then '\\' else c

theorem unescape_escape (text : List Char) : unescape (escape text) = text.map readChar := by
  have one (c d : Char) (apart : c ≠ '\\') : IsCode '\\' d [c] := .inr (.inl ⟨c, rfl, apart⟩)
  have two (c d : Char) (apart : c ≠ d) (notBackslash : c ≠ '\\') : IsCode '\\' d ['\\', c] :=
    .inr (.inr ⟨c, rfl, apart, notBackslash⟩)
  have backslashes : replaceAll ['\\', '\\'] ['\x00'] (text.flatMap escapeChar) =
      text.flatMap (coded ['\x00'] ['\\', 't'] ['\\', 'n']) :=
    replaceAll_coded _ _ (.inl rfl) (two 't' '\\' (by decide) (by decide)) (two 'n' '\\' (by decide) (by decide))
  have newlines : replaceAll ['\\', 'n'] ['\n'] (text.flatMap (coded ['\x00'] ['\\', 't'] ['\\', 'n'])) =
      text.flatMap (coded ['\x00'] ['\\', 't'] ['\n']) :=
    replaceAll_coded _ _ (one '\x00' 'n' (by decide)) (two 't' 'n' (by decide) (by decide)) (.inl rfl)
  have tabs : replaceAll ['\\', 't'] ['\t'] (text.flatMap (coded ['\x00'] ['\\', 't'] ['\n'])) =
      text.flatMap (coded ['\x00'] ['\t'] ['\n']) :=
    replaceAll_coded _ _ (one '\x00' 't' (by decide)) (.inl rfl) (one '\n' 't' (by decide))
  rw [unescape, escape_eq, backslashes, newlines, tabs, replaceAll_char, List.flatMap_assoc, List.map_eq_flatMap]
  apply List.flatMap_congr
  intro c _
  induction c using coded_cases with
  | backslash => rfl
  | tab => rfl
  | newline => rfl
  | other c notBackslash notTab notNewline =>
    rw [coded_other notBackslash notTab notNewline, readChar]
    by_cases null : c = '\x00' <;> simp [null]

section Escaped
variable {digits : Digits}

theorem escape_keeps (digits : Digits) : KeepsMarkers digits escapeChar := by
  have backslash : Plain digits '\\' := plain_of_ascii (by decide) (by decide) (by decide) (by decide)
  have tab : Plain digits '\t' := plain_of_ascii (by decide) (by decide) (by decide) (by decide)
  have newline : Plain digits '\n' := plain_of_ascii (by decide) (by decide) (by decide) (by decide)
  have t : Plain digits 't' := plain_of_ascii (by decide) (by decide) (by decide) (by decide)
  have n : Plain digits 'n' := plain_of_ascii (by decide) (by decide) (by decide) (by decide)
  constructor
  · intro c plain
    induction c using coded_cases with
    | backslash => simp [escapeChar, coded, backslash]
    | tab => simp [escapeChar, coded, backslash, t]
    | newline => simp [escapeChar, coded, backslash, n]
    | other c notBackslash notTab notNewline =>
      rw [escapeChar, coded_other notBackslash notTab notNewline]
      simp [plain]
  · intro c marked
    apply coded_other
    · exact fun same => marked (same ▸ backslash)
    · exact fun same => marked (same ▸ tab)
    · exact fun same => marked (same ▸ newline)

theorem escape_append (first second : List Char) : escape (first ++ second) = escape first ++ escape second := by
  simp only [escape_eq, List.flatMap_append]

/-- Neither a tab nor a newline is left, and nothing else comes in but backslashes and
letters. -/
theorem not_mem_escape {text : List Char} {c : Char} (control : c = '\t' ∨ c = '\n') : c ∉ escape text := by
  rw [escape_eq, List.mem_flatMap]
  rintro ⟨d, _, inside⟩
  induction d using coded_cases with
  | backslash => rcases control with rfl | rfl <;> simp [escapeChar, coded] at inside
  | tab => rcases control with rfl | rfl <;> simp [escapeChar, coded] at inside
  | newline => rcases control with rfl | rfl <;> simp [escapeChar, coded] at inside
  | other d notBackslash notTab notNewline =>
    rw [escapeChar, coded_other notBackslash notTab notNewline, List.mem_singleton] at inside
    subst inside
    rcases control with rfl | rfl
    · exact notTab rfl
    · exact notNewline rfl

theorem escape_cr (rest : List Char) : escape ('\r' :: rest) = '\r' :: escape rest := by
  rw [escape_eq, escape_eq]
  rfl

theorem cr_mem_escape {text : List Char} : '\r' ∈ escape text ↔ '\r' ∈ text := by
  rw [escape_eq, List.mem_flatMap]
  constructor
  · rintro ⟨d, member, inside⟩
    induction d using coded_cases with
    | backslash => simp [escapeChar, coded] at inside
    | tab => simp [escapeChar, coded] at inside
    | newline => simp [escapeChar, coded] at inside
    | other d notBackslash notTab notNewline =>
      rw [escapeChar, coded_other notBackslash notTab notNewline, List.mem_singleton] at inside
      exact inside ▸ member
  · intro member
    exact ⟨'\r', member, by decide⟩

end Escaped

/-! ## One line -/

section Reading

/-- Kind and address alone make no record. -/
theorem readLine_short {line : List Char} (short : line.count '\t' ≤ 1) : readLine line = none := by
  have size := length_splitOn '\t' line
  unfold readLine
  match fields : line.splitOn '\t' with
  | [] => rfl
  | [_] => rfl
  | [kind, address] =>
    have nothing (addr : UInt64) : readFields addr kind [] = none := by
      unfold readFields
      split
      · rfl
      · split <;> rfl
    simp [nothing]
  | _ :: _ :: _ :: rest =>
    rw [fields] at size
    simp only [List.length_cons] at size
    omega

theorem readAddress_hexText (addr : UInt64) : readAddress ('0' :: 'x' :: hexText addr) = some addr := by
  have read := parseHexLong_toHex addr
  simp only [parseHexLong, toHex, String.toList_ofList] at read
  exact read

theorem not_mem_hexText {c : Char} (addr : UInt64) (noDigit : Hex.digit? c = none) : c ∉ hexText addr := by
  intro member
  have digit := Hex.digit_of_readFrom (Hex.readFrom_digits addr.toNat) c member
  rw [noDigit] at digit
  cases digit

/-- A line up to its texts. -/
def lineStart (kind : Char) (addr : UInt64) : List Char := kind :: '\t' :: '0' :: 'x' :: hexText addr

theorem not_mem_lineStart {c kind : Char} (addr : UInt64) (noDigit : Hex.digit? c = none) (notX : c ≠ 'x')
    (notTab : c ≠ '\t') (notKind : c ≠ kind) : c ∉ lineStart kind addr := by
  have notZero : c ≠ '0' := by
    rintro rfl
    cases noDigit
  simp [lineStart, notKind, notTab, notZero, notX, not_mem_hexText addr noDigit]

theorem splitOn_lineStart {kind : Char} (addr : UInt64) (rest : List Char) (notTab : kind ≠ '\t') :
    (lineStart kind addr ++ '\t' :: rest).splitOn '\t' =
      [kind] :: ('0' :: 'x' :: hexText addr) :: rest.splitOn '\t' := by
  have address : '\t' ∉ '0' :: 'x' :: hexText addr := by
    simp [not_mem_hexText addr (show Hex.digit? '\t' = none by decide)]
  have first : '\t' ∉ [kind] := by simpa using Ne.symm notTab
  have shape : lineStart kind addr ++ '\t' :: rest =
      [kind] ++ '\t' :: (('0' :: 'x' :: hexText addr) ++ '\t' :: rest) := rfl
  rw [shape, List.splitOn_append_cons_self_of_not_mem first, List.splitOn_append_cons_self_of_not_mem address]

theorem readLine_start {kind : Char} (addr : UInt64) (rest : List Char) (notTab : kind ≠ '\t') :
    readLine (lineStart kind addr ++ '\t' :: rest) = readFields addr [kind] (rest.splitOn '\t') := by
  rw [readLine, splitOn_lineStart addr rest notTab]
  dsimp only
  rw [readAddress_hexText, Option.bind_some]

theorem tab_not_mem_escape (text : List Char) : '\t' ∉ escape text := not_mem_escape (.inl rfl)

theorem newline_not_mem_escape (text : List Char) : '\n' ∉ escape text := not_mem_escape (.inr rfl)

/-- A text up to its first carriage return. -/
def uncut (text : List Char) : List Char := text.takeWhile (· ≠ '\r')

theorem uncut_of_free {text : List Char} (free : '\r' ∉ text) : uncut text = text := by
  rw [uncut, List.takeWhile_eq_self_iff]
  intro c member
  have apart : c ≠ '\r' := fun same => free (same ▸ member)
  simpa using apart

theorem cr_not_mem_uncut (text : List Char) : '\r' ∉ uncut text := by
  intro member
  have kept := List.mem_takeWhile_imp member
  simp at kept

theorem exists_cut {text : List Char} (held : '\r' ∈ text) : ∃ rest, text = uncut text ++ '\r' :: rest := by
  obtain ⟨before, rest, rfl, free⟩ := List.eq_append_cons_of_mem held
  have front : uncut (before ++ '\r' :: rest) = before := by
    have kept : ∀ c ∈ before, decide (c ≠ '\r') = true := by
      intro c member
      have apart : c ≠ '\r' := fun same => free (same ▸ member)
      simpa using apart
    rw [uncut, List.takeWhile_append_of_pos kept]
    simp
  exact ⟨rest, by rw [front]⟩

theorem escape_cut {text rest : List Char} (shape : text = uncut text ++ '\r' :: rest) :
    escape text = escape (uncut text) ++ '\r' :: escape rest := by
  rw [← escape_cr, ← escape_append, ← shape]

/-- Of a line cut by a carriage return the script reads what is before it. -/
theorem runScript_cut {start rest : List Char} (newline : '\n' ∉ start) (cr : '\r' ∉ start)
    (short : rest.count '\t' ≤ 1) : runScript (start ++ '\r' :: rest) = (readLine start).toList := by
  obtain ⟨others, read, parts⟩ := lines_cut rest newline cr
  have nothing : others.filterMap readLine = [] := by
    rw [List.filterMap_eq_nil_iff]
    intro other member
    exact readLine_short (Nat.le_trans ((parts other member).count_le '\t') short)
  rw [runScript, read, List.filterMap_cons, nothing]
  cases readLine start <;> rfl

/-- The last text of a line ends with its first carriage return. -/
theorem runScript_last {start : List Char} (text : List Char) (newline : '\n' ∉ start) (cr : '\r' ∉ start) :
    runScript (start ++ (escape text ++ ['\n'])) = (readLine (start ++ escape (uncut text))).toList := by
  by_cases cut : '\r' ∈ text
  · obtain ⟨rest, shape⟩ := exists_cut cut
    rw [escape_cut shape, List.append_assoc, ← List.append_assoc start]
    apply runScript_cut
    · simp [newline, newline_not_mem_escape]
    · simp [cr, cr_mem_escape, cr_not_mem_uncut]
    · simp [List.count_append, List.count_eq_zero_of_not_mem (tab_not_mem_escape _)]
  · have single : lines (start ++ escape text ++ ['\n']) = [start ++ escape text] :=
      lines_line (by simp [newline, newline_not_mem_escape]) (by simp [cr, cr_mem_escape, cut])
    rw [uncut_of_free cut, ← List.append_assoc, runScript, single, List.filterMap_cons]
    cases readLine (start ++ escape text) <;> rfl

/-- A carriage return in the name leaves too few fields on every line; one in the plate
cuts it off. -/
theorem runScript_function (addr : UInt64) (name plate : List Char) :
    runScript (lineStart 'F' addr ++ '\t' :: (escape name ++ '\t' :: (escape plate ++ ['\n']))) =
      if '\r' ∈ name then []
      else [.function addr (String.ofList (name.map readChar)) (String.ofList ((uncut plate).map readChar))] := by
  have startNewline : '\n' ∉ lineStart 'F' addr :=
    not_mem_lineStart addr (by decide) (by decide) (by decide) (by decide)
  have startCr : '\r' ∉ lineStart 'F' addr :=
    not_mem_lineStart addr (by decide) (by decide) (by decide) (by decide)
  by_cases cut : '\r' ∈ name
  · obtain ⟨rest, shape⟩ := exists_cut cut
    have split : lineStart 'F' addr ++ '\t' :: (escape name ++ '\t' :: (escape plate ++ ['\n'])) =
        (lineStart 'F' addr ++ '\t' :: escape (uncut name)) ++
          '\r' :: (escape rest ++ '\t' :: (escape plate ++ ['\n'])) := by
      rw [escape_cut shape]
      simp
    have short : (escape rest ++ '\t' :: (escape plate ++ ['\n'])).count '\t' ≤ 1 := by
      simp [List.count_append, List.count_eq_zero_of_not_mem (tab_not_mem_escape _)]
    have first : readLine (lineStart 'F' addr ++ '\t' :: escape (uncut name)) = none := by
      rw [readLine_start addr _ (by decide), List.splitOn_eq_singleton (tab_not_mem_escape _)]
      rfl
    rw [if_pos cut, split, runScript_cut (by simp [startNewline, newline_not_mem_escape])
      (by simp [startCr, cr_mem_escape, cr_not_mem_uncut]) short, first]
    rfl
  · have split : lineStart 'F' addr ++ '\t' :: (escape name ++ '\t' :: (escape plate ++ ['\n'])) =
        (lineStart 'F' addr ++ '\t' :: (escape name ++ ['\t'])) ++ (escape plate ++ ['\n']) := by
      simp
    have line : lineStart 'F' addr ++ '\t' :: (escape name ++ ['\t']) ++ escape (uncut plate) =
        lineStart 'F' addr ++ '\t' :: (escape name ++ '\t' :: escape (uncut plate)) := by
      simp
    rw [if_neg cut, split, runScript_last plate (by simp [startNewline, newline_not_mem_escape])
      (by simp [startCr, cr_mem_escape, cut]), line, readLine_start addr _ (by decide),
      List.splitOn_append_cons_self_of_not_mem (tab_not_mem_escape _),
      List.splitOn_eq_singleton (tab_not_mem_escape _), ← unescape_escape, ← unescape_escape]
    rfl

theorem runScript_comment (addr : UInt64) (text : List Char) :
    runScript (lineStart 'C' addr ++ '\t' :: (escape text ++ ['\n'])) =
      if uncut text = [] then [] else [.comment addr (String.ofList ((uncut text).map readChar))] := by
  have startNewline : '\n' ∉ lineStart 'C' addr :=
    not_mem_lineStart addr (by decide) (by decide) (by decide) (by decide)
  have startCr : '\r' ∉ lineStart 'C' addr :=
    not_mem_lineStart addr (by decide) (by decide) (by decide) (by decide)
  have split : lineStart 'C' addr ++ '\t' :: (escape text ++ ['\n']) =
      (lineStart 'C' addr ++ ['\t']) ++ (escape text ++ ['\n']) := by
    simp
  have line : lineStart 'C' addr ++ ['\t'] ++ escape (uncut text) =
      lineStart 'C' addr ++ '\t' :: escape (uncut text) := by
    simp
  have fields : readFields addr ['C'] [escape (uncut text)] =
      if uncut text = [] then none else some (.comment addr (String.ofList ((uncut text).map readChar))) := by
    unfold readFields
    rw [if_neg (by decide), if_pos rfl]
    simp only [unescape_escape, List.map_eq_nil_iff]
  rw [split, runScript_last text (by simp [startNewline]) (by simp [startCr]), line, readLine_start addr _ (by decide),
    List.splitOn_eq_singleton (tab_not_mem_escape _), fields]
  split <;> rfl

end Reading

/-! ## The placeholders -/

section Placeholders
variable (digits : Digits)

theorem value_digit (d : Char) (ascii : d.toNat < 128) (isDigit : d.isDigit = true) :
    digits.value d = some (d.toNat - 48) := by
  rw [digits.ascii d ascii, if_pos isDigit]

theorem plain_tab : Plain digits '\t' := plain_of_ascii (by decide) (by decide) (by decide) (by decide)

theorem plain_newline : Plain digits '\n' := plain_of_ascii (by decide) (by decide) (by decide) (by decide)

theorem value_one : digits.value '1' = some 1 := value_digit digits '1' (by decide) (by decide)

theorem value_two : digits.value '2' = some 2 := value_digit digits '2' (by decide) (by decide)

theorem value_three : digits.value '3' = some 3 := value_digit digits '3' (by decide) (by decide)

theorem percent_not_mem_lineStart (kind : Char) (addr : UInt64) (notPercent : kind ≠ '%') :
    '%' ∉ lineStart kind addr ++ ['\t'] := by
  rw [List.mem_append, not_or]
  exact ⟨not_mem_lineStart addr (by decide) (by decide) (by decide) (Ne.symm notPercent), by decide⟩

/-- What the script gets to read as the name: the function comment in place of the
markers that are lower than the last one, or have its number. -/
def UploadFunction.lineName (func : UploadFunction) : List Char :=
  fill (taken digits func.sentName.toList 3) func.comment.toList (tokens digits func.sentName.toList)

/-- And as the plate: a lower marker in the name leaves the last one as it is. -/
def UploadFunction.linePlate (func : UploadFunction) : List Char :=
  if taken digits func.sentName.toList 3 = 3 then func.comment.toList else ['%', '3']

theorem functionLine_eq (func : UploadFunction) :
    functionLine digits func =
      lineStart 'F' func.start ++
        '\t' :: (escape (func.lineName digits) ++ '\t' :: (escape (func.linePlate digits) ++ ['\n'])) := by
  have template : "F\t0x%1\t%2\t%3\n".toList =
      ['F', '\t', '0', 'x'] ++ '%' :: '1' :: '\t' :: '%' :: '2' :: '\t' :: '%' :: '3' :: ['\n'] := rfl
  have lastSlot : tokens digits ('%' :: '3' :: ['\n']) = [.marker 3 ['%', '3'], .text '\n'] :=
    tokens_slot (value_three digits) (by decide) (plain_newline digits) []
  have addressed : arg digits "F\t0x%1\t%2\t%3\n".toList (hexText func.start) =
      (lineStart 'F' func.start ++ ['\t']) ++ '%' :: '2' :: '\t' :: '%' :: '3' :: ['\n'] := by
    rw [template, arg_slot (by decide) (value_one digits) (by decide) (plain_tab digits)]
    · simp [lineStart]
    · rw [tokens_slot (value_two digits) (by decide) (plain_tab digits), lastSlot]
      intro other spelling member
      simp only [List.mem_cons, Token.marker.injEq, reduceCtorEq, List.not_mem_nil, or_false, false_or] at member
      rcases member with ⟨rfl, _⟩ | ⟨rfl, _⟩ <;> decide
  have named (name : List Char) :
      arg digits ((lineStart 'F' func.start ++ ['\t']) ++ '%' :: '2' :: '\t' :: '%' :: '3' :: ['\n']) name =
        (lineStart 'F' func.start ++ ['\t']) ++ (name ++ '\t' :: '%' :: '3' :: ['\n']) := by
    apply arg_slot (percent_not_mem_lineStart 'F' func.start (by decide)) (value_two digits) (by decide)
      (plain_tab digits)
    rw [lastSlot]
    simp
  have sameNumber : taken digits (escape func.sentName.toList) 3 = taken digits func.sentName.toList 3 := by
    rw [taken, escape_eq, (escape_keeps digits).lowest_flatMap, taken]
  have sameName : fill (taken digits func.sentName.toList 3) (escape func.comment.toList)
      (tokens digits (escape func.sentName.toList)) = escape (func.lineName digits) := by
    rw [escape_eq, escape_eq, escape_eq, (escape_keeps digits).fill_flatMap]
    rfl
  have samePlate : (if taken digits func.sentName.toList 3 = 3 then escape func.comment.toList else ['%', '3']) =
      escape (func.linePlate digits) := by
    unfold UploadFunction.linePlate
    split <;> rfl
  rw [functionLine, addressed, named, arg_last (percent_not_mem_lineStart 'F' func.start (by decide))
    (value_three digits) (by decide) (plain_tab digits) (plain_newline digits), sameNumber, sameName, samePlate]
  simp

theorem commentLine_eq (comment : UInt64 × String) :
    commentLine digits comment = lineStart 'C' comment.1 ++ '\t' :: (escape comment.2.toList ++ ['\n']) := by
  have template : "C\t0x%1\t%2\n".toList =
      ['C', '\t', '0', 'x'] ++ '%' :: '1' :: '\t' :: '%' :: '2' :: ['\n'] := rfl
  have lastSlot : tokens digits ('%' :: '2' :: ['\n']) = [.marker 2 ['%', '2'], .text '\n'] :=
    tokens_slot (value_two digits) (by decide) (plain_newline digits) []
  have addressed : arg digits "C\t0x%1\t%2\n".toList (hexText comment.1) =
      (lineStart 'C' comment.1 ++ ['\t']) ++ '%' :: '2' :: ['\n'] := by
    rw [template, arg_slot (by decide) (value_one digits) (by decide) (plain_tab digits)]
    · simp [lineStart]
    · rw [lastSlot]
      simp
  rw [commentLine, addressed, arg_slot (percent_not_mem_lineStart 'C' comment.1 (by decide)) (value_two digits)
    (by decide) (plain_newline digits) (by simp)]
  simp

end Placeholders

/-! ## The whole analysis -/

/-- Lines that each end with a newline are read one by one. -/
theorem runScript_flatMap {A : Type} (items : List A) (line : A → List Char) (rest : List Char)
    (ended : ∀ item, ∃ text, line item = text ++ ['\n']) :
    runScript (items.flatMap line ++ rest) = items.flatMap (fun item => runScript (line item)) ++ runScript rest := by
  induction items with
  | nil => rfl
  | cons item items ih =>
    obtain ⟨text, shape⟩ := ended item
    have first (more : List Char) : runScript (line item ++ more) = runScript (line item) ++ runScript more := by
      rw [shape, List.append_assoc, List.singleton_append, runScript, lines_append_newline, List.filterMap_append]
      rfl
    rw [List.flatMap_cons, List.append_assoc, first, ih, List.flatMap_cons, List.append_assoc]

private theorem length_flatMap_le {A B : Type} {items : List A} {read : A → List B}
    (few : ∀ item ∈ items, (read item).length ≤ 1) : (items.flatMap read).length ≤ items.length := by
  induction items with
  | nil => exact Nat.le_refl 0
  | cons item rest ih =>
    have here := few item List.mem_cons_self
    have later := ih fun other member => few other (List.mem_cons_of_mem item member)
    rw [List.flatMap_cons, List.length_append, List.length_cons]
    omega

/-- Items that are read as one record at most give the list of their records only if each
gives its own. -/
private theorem flatMap_eq_map_iff {A B : Type} {items : List A} {read : A → List B} {record : A → B}
    (few : ∀ item ∈ items, (read item).length ≤ 1) :
    items.flatMap read = items.map record ↔ ∀ item ∈ items, read item = [record item] := by
  induction items with
  | nil => simp
  | cons item rest ih =>
    have here := few item List.mem_cons_self
    have fewer : ∀ other ∈ rest, (read other).length ≤ 1 := fun other member =>
      few other (List.mem_cons_of_mem item member)
    have tail := length_flatMap_le fewer
    rw [List.flatMap_cons, List.map_cons, List.forall_mem_cons]
    constructor
    · intro same
      have lengths := congrArg List.length same
      rw [List.length_append, List.length_cons, List.length_map] at lengths
      obtain ⟨first, later⟩ := List.append_inj (same.trans (List.singleton_append).symm)
        (by simp only [List.length_singleton]; omega)
      exact ⟨first, (ih fewer).mp later⟩
    · rintro ⟨first, later⟩
      rw [first, (ih fewer).mpr later, List.singleton_append]

private theorem two_flatMaps_eq_iff {A B C : Type} {items : List A} {others : List B} {readItem : A → List C}
    {readOther : B → List C} {item : A → C} {other : B → C} (fewItems : ∀ x ∈ items, (readItem x).length ≤ 1)
    (fewOthers : ∀ y ∈ others, (readOther y).length ≤ 1) :
    items.flatMap readItem ++ others.flatMap readOther = items.map item ++ others.map other ↔
      (∀ x ∈ items, readItem x = [item x]) ∧ ∀ y ∈ others, readOther y = [other y] := by
  rw [← flatMap_eq_map_iff fewItems, ← flatMap_eq_map_iff fewOthers]
  constructor
  · intro same
    have lengths := congrArg List.length same
    have first := length_flatMap_le fewItems
    have second := length_flatMap_le fewOthers
    rw [List.length_append, List.length_append, List.length_map, List.length_map] at lengths
    exact List.append_inj same (by rw [List.length_map]; omega)
  · rintro ⟨first, second⟩
    rw [first, second]

/-- No carriage return and no null character. -/
def SafeText (text : String) : Prop := '\r' ∉ text.toList ∧ '\x00' ∉ text.toList

/-- The markers in the name that are not above the last one of the line are the function
comment themselves. -/
def MarkersFit (digits : Digits) (func : UploadFunction) : Prop :=
  ∀ number spelling, .marker number spelling ∈ tokens digits func.sentName.toList → number ≤ 3 →
    number = 3 ∧ spelling = func.comment.toList

structure Readable (digits : Digits) (functions : List UploadFunction) (comments : List (UInt64 × String)) : Prop where
  names : ∀ func ∈ functions, SafeText func.sentName
  plates : ∀ func ∈ functions, SafeText func.comment
  markers : ∀ func ∈ functions, MarkersFit digits func
  texts : ∀ comment ∈ comments, SafeText comment.2

theorem null_not_mem_read (text : List Char) : '\x00' ∉ text.map readChar := by
  rw [List.mem_map]
  rintro ⟨c, _, read⟩
  unfold readChar at read
  split at read
  · cases read
  · contradiction

theorem map_readChar {text : List Char} (free : '\x00' ∉ text) : text.map readChar = text := by
  have same : ∀ c ∈ text, readChar c = c := by
    intro c member
    have apart : c ≠ '\x00' := fun null => free (null ▸ member)
    exact if_neg apart
  rw [List.map_congr_left same, List.map_id']

theorem cr_mem_read {text : List Char} : '\r' ∈ text.map readChar ↔ '\r' ∈ text := by
  rw [List.mem_map]
  constructor
  · rintro ⟨c, member, read⟩
    unfold readChar at read
    split at read
    · cases read
    · exact read ▸ member
  · exact fun member => ⟨'\r', member, by decide⟩

/-- A line carries name and plate exactly when no marker of the name is in the way. -/
theorem line_carries_iff (digits : Digits) (func : UploadFunction) :
    func.lineName digits = func.sentName.toList ∧ func.linePlate digits = func.comment.toList ↔
      MarkersFit digits func := by
  unfold UploadFunction.lineName UploadFunction.linePlate
  rw [fill_eq_self_iff]
  constructor
  · rintro ⟨spelled, plate⟩
    have last : taken digits func.sentName.toList 3 = 3 := by
      rcases taken_cases func.sentName.toList 3 with last | ⟨spelling, marked⟩
      · exact last
      · by_contra lower
        rw [if_neg lower] at plate
        have digitThree := spelled spelling marked
        rw [← plate] at digitThree
        subst digitThree
        have value := value_of_marker (by decide) marked
        rw [value_three] at value
        exact lower (Option.some.inj value).symm
    intro number spelling marked small
    have least := @taken_le digits _ _ 3 _ marked
    rw [last] at least spelled
    have three : number = 3 := by omega
    subst three
    exact ⟨rfl, spelled spelling marked⟩
  · intro fit
    have last : taken digits func.sentName.toList 3 = 3 := by
      rcases taken_cases func.sentName.toList 3 with last | ⟨spelling, marked⟩
      · exact last
      · exact (fit _ spelling marked (taken_le_number _ 3)).1
    rw [last, if_pos rfl]
    exact ⟨fun spelling marked => (fit 3 spelling marked (Nat.le_refl 3)).2, rfl⟩

theorem function_read_iff (digits : Digits) (func : UploadFunction) :
    runScript (functionLine digits func) = [.function func.start func.sentName func.comment] ↔
      SafeText func.sentName ∧ SafeText func.comment ∧ MarkersFit digits func := by
  rw [functionLine_eq, runScript_function, ← line_carries_iff]
  constructor
  · intro read
    split at read
    · cases read
    · rename_i uncutName
      simp only [List.cons.injEq, SyncRecord.function.injEq, true_and, and_true] at read
      have nameRead := congrArg String.toList read.1
      have plateRead := congrArg String.toList read.2
      rw [String.toList_ofList] at nameRead plateRead
      have safeName : SafeText func.sentName := by
        rw [SafeText, ← nameRead, cr_mem_read]
        exact ⟨uncutName, null_not_mem_read _⟩
      have safePlate : SafeText func.comment := by
        rw [SafeText, ← plateRead, cr_mem_read]
        exact ⟨cr_not_mem_uncut _, null_not_mem_read _⟩
      have noNull : '\x00' ∉ func.lineName digits := by
        intro member
        rcases mem_fill _ _ member with inPlate | inName
        · exact safePlate.2 inPlate
        · exact safeName.2 inName
      refine ⟨safeName, safePlate, ?_, ?_⟩
      · rw [← nameRead, map_readChar noNull]
      · unfold UploadFunction.linePlate at plateRead ⊢
        split
        · rfl
        · rename_i lower
          rw [if_neg lower] at plateRead
          exact plateRead
  · rintro ⟨safeName, safePlate, name, plate⟩
    rw [name, plate, if_neg safeName.1, uncut_of_free safePlate.1, map_readChar safeName.2, map_readChar safePlate.2,
      String.ofList_toList, String.ofList_toList]

theorem comment_read_iff (digits : Digits) (comment : UInt64 × String) (nonempty : comment.2 ≠ "") :
    runScript (commentLine digits comment) = [.comment comment.1 comment.2] ↔ SafeText comment.2 := by
  rw [commentLine_eq, runScript_comment]
  constructor
  · intro read
    split at read
    · cases read
    · simp only [List.cons.injEq, SyncRecord.comment.injEq, true_and, and_true] at read
      have textRead := congrArg String.toList read
      rw [String.toList_ofList] at textRead
      rw [SafeText, ← textRead, cr_mem_read]
      exact ⟨cr_not_mem_uncut _, null_not_mem_read _⟩
  · intro safe
    have filled : comment.2.toList ≠ [] := fun empty => nonempty (String.toList_eq_nil_iff.mp empty)
    rw [uncut_of_free safe.1, if_neg filled, map_readChar safe.2, String.ofList_toList]

/-- The script reads one record for each function and each comment with a text, in their
order and as they are, exactly when no text holds a carriage return or a null character
and no name a marker that takes the function comment in. -/
theorem analysis_read_iff (digits : Digits) (functions : List UploadFunction) (comments : List (UInt64 × String)) :
    runScript (analysisText digits functions comments) = records functions comments ↔
      Readable digits functions comments := by
  have functionEnded (func : UploadFunction) : ∃ text, functionLine digits func = text ++ ['\n'] := by
    rw [functionLine_eq]
    exact ⟨lineStart 'F' func.start ++
      '\t' :: (escape (func.lineName digits) ++ '\t' :: escape (func.linePlate digits)), by simp⟩
  have commentEnded (comment : UInt64 × String) : ∃ text, commentLine digits comment = text ++ ['\n'] := by
    rw [commentLine_eq]
    exact ⟨lineStart 'C' comment.1 ++ '\t' :: escape comment.2.toList, by simp⟩
  have fewFunctions : ∀ func ∈ functions, (runScript (functionLine digits func)).length ≤ 1 := by
    intro func _
    rw [functionLine_eq, runScript_function]
    split <;> simp
  have fewComments : ∀ comment ∈ comments.filter fun comment => comment.2 ≠ "",
      (runScript (commentLine digits comment)).length ≤ 1 := by
    intro comment _
    rw [commentLine_eq, runScript_comment]
    split <;> simp
  have read := runScript_flatMap (comments.filter fun comment => comment.2 ≠ "") (commentLine digits) [] commentEnded
  have nothing : runScript [] = [] := rfl
  rw [List.append_nil, nothing, List.append_nil] at read
  rw [analysisText, runScript_flatMap functions (functionLine digits) _ functionEnded, read, records,
    two_flatMaps_eq_iff fewFunctions fewComments]
  constructor
  · rintro ⟨functionsRead, commentsRead⟩
    have each (func : UploadFunction) (member : func ∈ functions) :=
      (function_read_iff digits func).mp (functionsRead func member)
    refine ⟨fun func member => (each func member).1, fun func member => (each func member).2.1,
      fun func member => (each func member).2.2, fun comment member => ?_⟩
    by_cases empty : comment.2 = ""
    · rw [empty]
      exact ⟨by decide, by decide⟩
    · exact (comment_read_iff digits comment empty).mp
        (commentsRead comment (List.mem_filter.mpr ⟨member, by simpa using empty⟩))
  · intro readable
    refine ⟨fun func member => ?_, fun comment member => ?_⟩
    · exact (function_read_iff digits func).mpr
        ⟨readable.names func member, readable.plates func member, readable.markers func member⟩
    · obtain ⟨listed, filled⟩ := List.mem_filter.mp member
      exact (comment_read_iff digits comment (by simpa using filled)).mpr (readable.texts comment listed)

/-- A function comment takes the place of a marker in the name, and a carriage return
cuts a comment off. -/
theorem analysis_misread :
    runScript (analysisText Digits.onlyAscii [⟨0x401000, "ratio%3", "scaled"⟩] [(0x401010, "first\r\nsecond")]) =
      [.function 0x401000 "ratioscaled" "scaled", .comment 0x401010 "first"] ∧
    runScript (analysisText Digits.onlyAscii [⟨0x401000, "ratio%3", "scaled"⟩] [(0x401010, "first\r\nsecond")]) ≠
      records [⟨0x401000, "ratio%3", "scaled"⟩] [(0x401010, "first\r\nsecond")] := by
  have read : runScript (analysisText Digits.onlyAscii [⟨0x401000, "ratio%3", "scaled"⟩]
      [(0x401010, "first\r\nsecond")]) = [.function 0x401000 "ratioscaled" "scaled", .comment 0x401010 "first"] := by
    decide +kernel
  refine ⟨read, ?_⟩
  rw [read]
  decide +kernel

end GhidraBridge.UploadAnalysis
