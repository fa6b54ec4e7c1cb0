import ApiDocs.Markdown
import ApiDocs.Proofs.Joining
import ApiDocs.Text.Lines

/-!
# Cells of tables

The rows of a table can be read back. In a cell every bar stands right after a backslash, so the
bars of a row that stand after anything else are those around its cells. White space in a cell is
single spaces, so a row is a single line.
-/

namespace ApiDocs.Markdown

open Text

/-! ### Reading a row -/

/-- The parts of a row between its bars. A bar right after a backslash does not divide; the flag
says whether the code point before is one. -/
def splitBars : Bool → Text → List Text
  | _, [] => [[]]
  | escaped, c :: cs =>
    if c = .char '|' ∧ escaped = false then [] :: splitBars false cs
    else (splitBars (c = .char '\\') cs).modifyHead (c :: ·)

/-- A text whose bars after backslashes become bars. -/
def unescapeBars : Text → Text
  | [] => []
  | .char '\\' :: .char '|' :: cs => .char '|' :: unescapeBars cs
  | c :: cs => c :: unescapeBars cs

/-- The text of a part of a row, between one space of padding on each side. -/
def readPart? : Text → Option Text
  | .char ' ' :: part =>
    if part.getLast? = some (.char ' ') then some (unescapeBars part.dropLast) else none
  | _ => none

/-- The texts of the cells of a row, which starts and ends with a bar. -/
def readRow? (line : Text) : Option (List Text) :=
  match splitBars false line with
  | [] :: parts => if parts.getLast? = some [] then parts.dropLast.mapM readPart? else none
  | _ => none

/-- A text with its white space as single spaces between words. -/
def collapseBlanks (s : Text) : Text := joinWith " " (words s)

/-- The lines of a table before its rows. -/
def headLines (headers : List Text) : List Text :=
  splitWhere (· == .char '\n') (joinWith "\n" [row headers, row (headers.map fun _ => "---")])

/-! ### Escaped bars -/

/-- A text with a backslash before each bar. -/
def escapeBars (s : Text) : Text :=
  s.flatMap fun c => if c = .char '|' then "\\|" else [c]

@[simp] lemma escapeBars_nil : escapeBars [] = [] := rfl

@[simp] lemma escapeBars_bar (s : Text) :
    escapeBars (.char '|' :: s) = .char '\\' :: .char '|' :: escapeBars s := rfl

lemma escapeBars_cons {c : CodePoint} (h : c ≠ .char '|') (s : Text) :
    escapeBars (c :: s) = c :: escapeBars s := by
  simp [escapeBars, h]

lemma escapeBars_append (s t : Text) : escapeBars (s ++ t) = escapeBars s ++ escapeBars t := by
  simp [escapeBars]

lemma escapeBars_eq_nil_iff {s : Text} : escapeBars s = [] ↔ s = [] := by
  cases s with
  | nil => simp
  | cons c s =>
    by_cases h : c = .char '|'
    · simp [h]
    · simp [escapeBars_cons h]

/-- No escaped text starts with a bar. -/
lemma head?_escapeBars (s : Text) : (escapeBars s).head? ≠ some (.char '|') := by
  cases s with
  | nil => simp
  | cons c s =>
    by_cases h : c = .char '|'
    · simp [h]
    · simp [escapeBars_cons h, h]

lemma unescapeBars_cons {s : Text} (h : s.head? ≠ some (.char '|')) (c : CodePoint) :
    unescapeBars (c :: s) = c :: unescapeBars s := by
  rw [unescapeBars.eq_def]
  split <;> simp_all

lemma unescapeBars_escapeBars (s : Text) : unescapeBars (escapeBars s) = s := by
  induction s with
  | nil => rfl
  | cons c s ih =>
    by_cases h : c = .char '|'
    · rw [h, escapeBars_bar, unescapeBars, ih]
    · rw [escapeBars_cons h, unescapeBars_cons (head?_escapeBars s), ih]

/-! ### Cells -/

lemma splitWhere_escapeBars (s : Text) :
    splitWhere isBlank (escapeBars s) = (splitWhere isBlank s).map escapeBars := by
  have hbar : isBlank (.char '|') = false := by decide
  induction s with
  | nil => rfl
  | cons c s ih =>
    obtain ⟨w, ws, hw⟩ := List.exists_cons_of_ne_nil (splitWhere_ne_nil isBlank s)
    rw [hw] at ih
    by_cases h : c = .char '|'
    · rw [h, escapeBars_bar, splitWhere_cons_of_not (by decide), splitWhere_cons_of_not hbar, ih,
        splitWhere_cons_of_not hbar, hw]
      rfl
    · rw [escapeBars_cons h]
      cases hc : isBlank c with
      | true => simp [splitWhere, hc, ih, hw]
      | false =>
        rw [splitWhere_cons_of_not hc, splitWhere_cons_of_not hc, ih, hw]
        simp [escapeBars_cons h]

lemma words_escapeBars (s : Text) : words (escapeBars s) = (words s).map escapeBars := by
  have hempty : ((fun w : Text => ! w.isEmpty) ∘ escapeBars) = fun w => ! w.isEmpty := by
    funext w
    cases w with
    | nil => rfl
    | cons c w => simp [escapeBars_eq_nil_iff]
  rw [words, words, splitWhere_escapeBars, List.filter_map, hempty]

lemma joinWith_map_escapeBars (ws : List Text) :
    joinWith " " (ws.map escapeBars) = escapeBars (joinWith " " ws) := by
  induction ws with
  | nil => rfl
  | cons w ws ih =>
    cases ws with
    | nil => rfl
    | cons v ws =>
      simp only [List.map_cons, joinWith] at ih ⊢
      rw [ih, escapeBars_append, escapeBars_append]
      rfl

/-- A cell is its text with single spaces and escaped bars. -/
lemma cell_eq (s : Text) : cell s = escapeBars (collapseBlanks s) := by
  rw [collapseBlanks, ← joinWith_map_escapeBars, ← words_escapeBars]
  rfl

/-! ### Rows -/

lemma splitBars_bar (s : Text) : splitBars false (.char '|' :: s) = [] :: splitBars false s := by
  simp [splitBars]

lemma splitBars_escaped (s : Text) :
    splitBars true (.char '|' :: s) = (splitBars false s).modifyHead (.char '|' :: ·) := by
  simp [splitBars]

lemma splitBars_cons {c : CodePoint} (h : c ≠ .char '|') (escaped : Bool) (s : Text) :
    splitBars escaped (c :: s) = (splitBars (c = .char '\\') s).modifyHead (c :: ·) := by
  simp [splitBars, h]

/-- An escaped text ends at the next space that a bar follows. -/
lemma splitBars_escapeBars_append (escaped : Bool) (s rest : Text) :
    splitBars escaped (escapeBars s ++ .char ' ' :: .char '|' :: rest) =
      (escapeBars s ++ [.char ' ']) :: splitBars false rest := by
  induction s generalizing escaped with
  | nil =>
    rw [escapeBars_nil, List.nil_append, splitBars_cons (by decide)]
    simp [splitBars_bar]
  | cons c s ih =>
    by_cases h : c = .char '|'
    · rw [h, escapeBars_bar, List.cons_append, splitBars_cons (by decide)]
      simp [splitBars_escaped, ih]
    · rw [escapeBars_cons h, List.cons_append, splitBars_cons h, ih]
      rfl

/-- A part of a row with an escaped text, between its padding. -/
def part (s : Text) : Text := .char ' ' :: (escapeBars s ++ [.char ' '])

lemma readPart?_part (s : Text) : readPart? (part s) = some s := by
  simp [part, readPart?, unescapeBars_escapeBars]

lemma splitBars_parts {texts : List Text} (h : texts ≠ []) :
    splitBars false (.char ' ' :: (joinWith " | " (texts.map escapeBars) ++ " |")) =
      texts.map part ++ [[]] := by
  induction texts with
  | nil => exact absurd rfl h
  | cons s texts ih =>
    have hpart (rest : Text) :
        splitBars false (.char ' ' :: (escapeBars s ++ .char ' ' :: .char '|' :: rest)) =
          part s :: splitBars false rest := by
      rw [splitBars_cons (by decide), splitBars_escapeBars_append]
      rfl
    cases texts with
    | nil => exact hpart []
    | cons t texts =>
      have hrest := ih (List.cons_ne_nil t texts)
      simp only [List.map_cons, joinWith, List.append_assoc] at hrest ⊢
      refine (hpart _).trans ?_
      rw [List.cons_append]
      exact congrArg _ hrest

/-- A row of escaped texts is read back. -/
lemma readRow?_row {texts : List Text} (h : texts ≠ []) :
    readRow? (row (texts.map escapeBars)) = some texts := by
  have hsplit : splitBars false (row (texts.map escapeBars)) = [] :: (texts.map part ++ [[]]) := by
    rw [← splitBars_parts h, ← splitBars_bar]
    rfl
  have hparts : (texts.map part).mapM readPart? = some texts := by
    clear h hsplit
    induction texts with
    | nil => rfl
    | cons s texts ih => simp [readPart?_part, ih]
  simp [readRow?, hsplit, hparts]

/-! ### Line ends -/

lemma isBlank_of_isLineEnd {c : CodePoint} (h : isLineEnd c = true) : isBlank c = true := by
  simp only [isLineEnd, isBlank, Bool.or_eq_true, Bool.and_eq_true, decide_eq_true_eq,
    beq_iff_eq] at h ⊢
  omega

/-- The only white space in a text with single spaces is spaces. -/
lemma eq_space_of_mem_collapseBlanks {s : Text} {c : CodePoint} (h : c ∈ collapseBlanks s) :
    c = .char ' ' ∨ isBlank c = false := by
  rcases mem_joinWith h with hspace | ⟨w, hw, hc⟩
  · exact .inl hspace
  · have hmem : c ∈ withoutBlanks s := by
      rw [← flatten_words]
      exact List.mem_flatten.2 ⟨w, hw, hc⟩
    exact .inr (by simpa using (List.mem_filter.1 hmem).2)

lemma mem_escapeBars {s : Text} {c : CodePoint} (h : c ∈ escapeBars s) :
    c = .char '\\' ∨ c ∈ s := by
  obtain ⟨d, hd, hc⟩ := List.mem_flatMap.1 h
  split at hc
  · rename_i hbar
    rcases List.mem_cons.1 hc with hslash | hc
    · exact .inl hslash
    · rw [List.mem_singleton.1 hc]
      exact .inr (hbar ▸ hd)
  · rw [List.mem_singleton.1 hc]
    exact .inr hd

lemma not_isLineEnd_of_mem_cell {s : Text} {c : CodePoint} (h : c ∈ cell s) :
    isLineEnd c = false := by
  rw [cell_eq] at h
  rcases mem_escapeBars h with rfl | hc
  · decide
  · rcases eq_space_of_mem_collapseBlanks hc with rfl | hblank
    · decide
    · exact Bool.eq_false_iff.2 fun hend => absurd (isBlank_of_isLineEnd hend) (by simp [hblank])

lemma not_isLineEnd_of_mem_row {texts : List Text} {c : CodePoint}
    (h : c ∈ row (texts.map cell)) : isLineEnd c = false := by
  have hframe : ∀ d ∈ ("| " ++ " | " ++ " |" : Text), isLineEnd d = false := by decide
  simp only [List.mem_append] at hframe
  simp only [row, List.mem_append] at h
  rcases h with (hstart | hjoined) | hend
  · exact hframe c (.inl (.inl hstart))
  · rcases mem_sep_or_of_mem_joinWith hjoined with hsep | ⟨w, hw, hc⟩
    · exact hframe c (.inl (.inr hsep))
    · obtain ⟨s, -, rfl⟩ := List.mem_map.1 hw
      exact not_isLineEnd_of_mem_cell hc
  · exact hframe c (.inr hend)

/-! ### Tables -/

/-- The lines of a table are those before its rows, and then its rows. -/
lemma lines_table (headers : List Text) {rows : List (List Text)} (h : rows ≠ []) :
    splitWhere (· == .char '\n') (table headers rows) =
      headLines headers ++ rows.map fun texts => row (texts.map cell) := by
  have hrows : rows.map (fun texts => row (texts.map cell)) ≠ [] := by simpa using h
  have hsingle : ∀ line ∈ rows.map (fun texts => row (texts.map cell)),
      CodePoint.char '\n' ∉ line := by
    intro line hline hmem
    obtain ⟨texts, -, rfl⟩ := List.mem_map.1 hline
    exact absurd (not_isLineEnd_of_mem_row hmem) (by decide)
  have hjoined : table headers rows =
      joinWith "\n" [row headers, row (headers.map fun _ => "---")] ++ .char '\n' ::
        joinWith "\n" (rows.map fun texts => row (texts.map cell)) := by
    rw [table, if_neg (by simpa using h)]
    exact (joinWith_append "\n" (List.cons_ne_nil _ [_]) hrows).trans (List.append_assoc ..)
  rw [hjoined, splitWhere_append_seam (by decide), headLines]
  congr 1
  exact splitWhere_joinWith hrows hsingle

/-- The lines of a table after those of its headers are its rows. Each is a single line, and it is
read back as the texts that were given for it, with their white space as single spaces: it has as
many cells as there were texts. -/
theorem rows_of_table (headers : List Text) {rows : List (List Text)} (hrows : rows ≠ [])
    (htexts : ∀ texts ∈ rows, texts ≠ []) :
    ∃ lines, splitWhere (· == .char '\n') (table headers rows) = headLines headers ++ lines ∧
      (∀ line ∈ lines, ∀ c ∈ line, isLineEnd c = false) ∧
      lines.map readRow? = rows.map fun texts => some (texts.map collapseBlanks) := by
  refine ⟨_, lines_table headers hrows, ?_, ?_⟩
  · intro line hline c hc
    obtain ⟨texts, -, rfl⟩ := List.mem_map.1 hline
    exact not_isLineEnd_of_mem_row hc
  · rw [List.map_map]
    apply List.map_congr_left
    intro texts hmem
    have hcells : texts.map cell = (texts.map collapseBlanks).map escapeBars := by
      simp [cell_eq]
    rw [Function.comp_apply, hcells, readRow?_row (by simpa using htexts texts hmem)]

/-- Rows of texts with bars, backslashes and white space, and of nothing at all. -/
def toughRows : List (List Text) :=
  [["a|b", "\\", "\\|"], ["|", " two\n\tlines ", "||\\"], ["", "\u2028"]]

theorem rows_of_table_toughRows :
    ∃ lines, splitWhere (· == .char '\n') (table ["Name", "a\n|b"] toughRows) =
        headLines ["Name", "a\n|b"] ++ lines ∧
      lines = ["| a\\|b | \\ | \\\\| |", "| \\| | two lines | \\|\\|\\ |", "|  |  |"] ∧
      lines.map readRow? =
        ([["a|b", "\\", "\\|"], ["|", "two lines", "||\\"], ["", ""]] :
          List (List Text)).map some := by
  obtain ⟨lines, hlines, -, hread⟩ :=
    rows_of_table ["Name", "a\n|b"] (by decide : toughRows ≠ []) (by decide)
  refine ⟨lines, hlines, ?_, ?_⟩
  · exact List.append_cancel_left (hlines.symm.trans (by decide +kernel))
  · rw [hread]
    decide +kernel

end ApiDocs.Markdown
