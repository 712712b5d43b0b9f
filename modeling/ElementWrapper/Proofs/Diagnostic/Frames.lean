import ElementWrapper.Proofs.Files.Resolution
import ElementWrapper.Proofs.Text.Lines
import ElementWrapper.Diagnostic

/-!
What the frame of a diagnostic shows. `IsFrame` describes the rows of a frame around one of the
lines of a text: the line with its number behind a mark, a caret under the located code point, and
the lines around it, all numbers in one column.

A frame is right about the lines that `Text.lines` counts (`isFrame_frameLines`). A location counts
line feeds only, so that the frame shows the line that is meant just as far as the two counts agree
(`isFrame_attach`).
-/

namespace ElementWrapper

namespace Text

theorem length_ofNat_le {m n : Nat} (le : m ≤ n) : (ofNat m).length ≤ (ofNat n).length := by
  have some : 0 < (Nat.toDigits 10 n).length := Nat.length_toDigits_pos
  have below := (Nat.length_toDigits_le_iff (by decide) some).1 (Nat.le_refl _)
  simpa [ofNat, ofChars] using
    (Nat.length_toDigits_le_iff (by decide) some).2 (Nat.lt_of_le_of_lt le below)

theorem feed_notMem_ofNat (n : Nat) : .scalar '\n' ∉ ofNat n := by
  intro mem
  obtain ⟨digit, mem, eq⟩ := List.mem_map.1 mem
  obtain rfl := CodePoint.scalar.inj eq
  exact absurd (Nat.isDigit_of_mem_toDigits (by decide) (by decide) mem) (by decide)

end Text

namespace Diagnostic

variable {width index column : Nat} {mark : CodePoint} {label content row : Text}
  {lines : List Text}

/-! ## Rows -/

/-- The code points that fill up a column. -/
def blanks (n : Nat) : Text := List.replicate n (.scalar ' ')

/-- A row of a frame: a mark, a label at the right end of a column of some width, a bar and a
content. -/
structure IsRow (width : Nat) (mark : CodePoint) (label content row : Text) : Prop where
  front : ∃ n, row.take (width + 3) = mark :: blanks (n + 1) ++ label ++ blanks 1
  bar : row[width + 3]? = some (.scalar '|')
  content : row.drop (width + 5) = content

/-- The row of a line with its number, which is one more than its index. -/
def IsNumbered (width : Nat) (mark : CodePoint) (entry : Text × Nat) (row : Text) : Prop :=
  IsRow width mark (Text.ofNat (entry.2 + 1)) entry.1 row

/-- The rows of a frame: up to two lines above, the marked line, the caret and up to two lines
below. Blanks at the ends of lines are not shown. -/
def IsFrame (lines : List Text) (index column : Nat) (rows : List Text) : Prop :=
  let shown := (lines.take (index + contextLines + 1)).map (Text.trimEnd Text.isBlank)
  let first := index - contextLines
  ∃ width above line marked caret below,
    rows = above ++ marked :: caret :: below ∧
    List.Forall₂ (IsNumbered width (.scalar ' '))
      (((shown.take index).drop first).zipIdx first) above ∧
    shown[index]? = some line ∧ IsNumbered width (.scalar '>') (line, index) marked ∧
    IsRow width (.scalar ' ') [] (blanks column ++ [.scalar '^']) caret ∧
    List.Forall₂ (IsNumbered width (.scalar ' '))
      ((shown.drop (index + 1)).zipIdx (index + 1)) below

theorem IsRow.head?_eq (h : IsRow width mark label content row) : row.head? = some mark := by
  obtain ⟨n, front⟩ := h.front
  have first := congrArg List.head? front
  rwa [List.head?_take, if_neg (by omega)] at first

/-- One row of a frame is marked, and behind its number stands the line. -/
theorem IsFrame.filter_marked {rows : List Text} (frame : IsFrame lines index column rows) :
    ∃ marked n, rows.filter (·.head? = some (.scalar '>')) = [marked] ∧
      (lines.map (Text.trimEnd Text.isBlank))[index]? = some (marked.drop n) := by
  obtain ⟨width, above, line, marked, caret, below, rfl, first, at_index, mark, pointer, last⟩ :=
    frame
  have plain {entries : List (Text × Nat)} {others : List Text}
      (rows : List.Forall₂ (IsNumbered width (.scalar ' ')) entries others) :
      others.filter (·.head? = some (.scalar '>')) = [] := by
    induction rows with
    | nil => rfl
    | cons row rows ih => rw [List.filter_cons_of_neg (by simp [row.head?_eq]), ih]
  refine ⟨marked, width + 5, ?_, ?_⟩
  · rw [List.filter_append, plain first, List.filter_cons_of_pos (by simp [mark.head?_eq]),
      List.filter_cons_of_neg (by simp [pointer.head?_eq]), plain last]
    rfl
  · rw [List.map_take, List.getElem?_take_of_lt (by omega)] at at_index
    rw [at_index, mark.content]

/-- What stands before the bar of a row. -/
def margin (width : Nat) (mark : CodePoint) (label : Text) : Text :=
  mark :: blanks 1 ++ padLeft width label ++ blanks 1

/-- What stands behind a margin is the content of a row, if the label fits into the width. -/
theorem isRow_margin (mark : CodePoint) (label rest : Text) (fits : label.length ≤ width) :
    IsRow width mark label (rest.drop 1) (margin width mark label ++ .scalar '|' :: rest) := by
  have length : (margin width mark label).length = width + 3 := by
    simp [margin, padLeft, blanks]
    omega
  refine ⟨⟨width - label.length, ?_⟩, ?_, ?_⟩
  · rw [List.take_left' length]
    simp [margin, padLeft, blanks, List.replicate_succ]
  · rw [List.getElem?_append_right (by omega), length, Nat.sub_self, List.getElem?_cons_zero]
  · have far : width + 5 = (margin width mark label).length + 2 := by omega
    rw [far, ← List.drop_drop, List.drop_left]
    rfl

/-- The row of a line as the frame has it. -/
def numbered (width : Nat) (mark : CodePoint) (entry : Text × Nat) : Text :=
  Text.trimEnd Text.isBlank
    (margin width mark (Text.ofNat (entry.2 + 1)) ++ .scalar '|' :: .scalar ' ' :: entry.1)

theorem isNumbered_numbered (mark : CodePoint) (entry : Text × Nat)
    (fits : (Text.ofNat (entry.2 + 1)).length ≤ width) :
    IsNumbered width mark (entry.map (Text.trimEnd Text.isBlank) id)
      (numbered width mark entry) := by
  rw [numbered, Text.trimEnd_append (by decide), IsNumbered]
  have row := isRow_margin mark _ (Text.trimEnd Text.isBlank (.scalar ' ' :: entry.1)) fits
  rwa [Text.drop_trimEnd_cons] at row

/-- The row with the caret. -/
def caretRow (width column : Nat) : Text :=
  margin width (.scalar ' ') [] ++ .scalar '|' :: .scalar ' ' :: (blanks column ++ [.scalar '^'])

theorem isRow_caretRow (width column : Nat) :
    IsRow width (.scalar ' ') [] (blanks column ++ [.scalar '^']) (caretRow width column) :=
  isRow_margin (.scalar ' ') [] (.scalar ' ' :: (blanks column ++ [.scalar '^'])) (Nat.zero_le _)

/-! ## The frame around a line -/

/-- The rows for one line of a frame. -/
def rowsOf (width index column : Nat) (entry : Text × Nat) : List Text :=
  if entry.2 = index then [numbered width (.scalar '>') entry, caretRow width column]
  else [numbered width (.scalar ' ') entry]

/-- The lines of a frame are the rows of the lines around the place, one after the other. -/
theorem frameLines_eq_flatMap (lines : List Text) (index column : Nat) :
    let last := min lines.length (index + contextLines + 1)
    frameLines lines index column =
      (((lines.take last).drop (index - contextLines)).zipIdx (index - contextLines)).flatMap
        (rowsOf (Text.ofNat last).length index column) := by
  intro last
  simp only [frameLines]
  congr 1
  funext ⟨line, i⟩
  have shown (mark : CodePoint) : [mark] ++ (" " : Text) ++
      padLeft (Text.ofNat last).length (Text.ofNat (i + 1)) ++ (" | " : Text) ++ line =
        margin (Text.ofNat last).length mark (Text.ofNat (i + 1)) ++
          .scalar '|' :: .scalar ' ' :: line := by
    simp [margin, blanks, Text.ofString, Text.ofChars]
  have caret : ("  " : Text) ++ List.replicate (Text.ofNat last).length (.scalar ' ') ++
      (" | " : Text) ++ List.replicate column (.scalar ' ') ++ ("^" : Text) =
        caretRow (Text.ofNat last).length column := by
    simp [caretRow, margin, padLeft, blanks, Text.ofString, Text.ofChars, List.replicate_succ]
  by_cases same : i = index
  · simp only [rowsOf, if_pos same]
    exact congrArg₂ (fun row caret => [row, caret])
      (congrArg (Text.trimEnd Text.isBlank) (shown (.scalar '>'))) caret
  · simp only [rowsOf, if_neg same]
    exact congrArg (fun row => [Text.trimEnd Text.isBlank row]) (shown (.scalar ' '))

theorem flatMap_rowsOf {entries : List (Text × Nat)} (apart : ∀ entry ∈ entries, entry.2 ≠ index) :
    entries.flatMap (rowsOf width index column) = entries.map (numbered width (.scalar ' ')) := by
  induction entries with
  | nil => rfl
  | cons entry entries ih =>
    obtain ⟨first, others⟩ := List.forall_mem_cons.1 apart
    rw [List.flatMap_cons, ih others, rowsOf, if_neg first]
    rfl

/-- Split at the place, a frame has numbered rows above, the marked row with the caret under it, and
numbered rows below. No other index is that of the place, so that nothing else is marked. -/
theorem frameLines_eq (within : index < lines.length) :
    let shown := lines.take (index + contextLines + 1)
    let first := index - contextLines
    let width := (Text.ofNat (min lines.length (index + contextLines + 1))).length
    frameLines lines index column =
      (((shown.take index).drop first).zipIdx first).map (numbered width (.scalar ' ')) ++
        numbered width (.scalar '>') (lines[index], index) :: caretRow width column ::
          ((shown.drop (index + 1)).zipIdx (index + 1)).map (numbered width (.scalar ' ')) := by
  intro shown first width
  have present : index < shown.length := by simp [shown]; omega
  have take_last : lines.take (min lines.length (index + contextLines + 1)) = shown := by
    rw [Nat.min_comm, ← List.take_eq_take_min]
  have split : shown.drop first =
      (shown.take index).drop first ++ lines[index] :: shown.drop (index + 1) := by
    have whole := List.take_append_drop index shown
    rw [List.drop_eq_getElem_cons present] at whole
    conv_lhs => rw [← whole]
    rw [List.drop_append_of_le_length (by simp; omega)]
    simp [shown]
  have length : ((shown.take index).drop first).length + first = index := by
    simp
    omega
  rw [frameLines_eq_flatMap, take_last, split, List.zipIdx_append, List.zipIdx_cons,
    List.flatMap_append, List.flatMap_cons, Nat.add_comm first, length, flatMap_rowsOf,
    flatMap_rowsOf]
  · rw [rowsOf, if_pos rfl]
    rfl
  · intro entry mem
    have bound := List.le_snd_of_mem_zipIdx mem
    omega
  · intro entry mem
    have bound := List.snd_lt_add_of_mem_zipIdx mem
    omega

theorem forall₂_numbered {texts : List Text} {first : Nat}
    (fits : ∀ i < first + texts.length, (Text.ofNat (i + 1)).length ≤ width) :
    List.Forall₂ (IsNumbered width mark)
      ((texts.map (Text.trimEnd Text.isBlank)).zipIdx first)
      ((texts.zipIdx first).map (numbered width mark)) := by
  rw [List.zipIdx_map, List.forall₂_map_left_iff, List.forall₂_map_right_iff, List.forall₂_same]
  intro entry mem
  exact isNumbered_numbered mark entry (fits _ (List.snd_lt_add_of_mem_zipIdx mem))

/-- A frame is right about the lines that it is made from. -/
theorem isFrame_frameLines (within : index < lines.length) (column : Nat) :
    IsFrame lines index column (frameLines lines index column) := by
  let last := min lines.length (index + contextLines + 1)
  have fits (i : Nat) (bound : i < last) :
      (Text.ofNat (i + 1)).length ≤ (Text.ofNat last).length := Text.length_ofNat_le bound
  have marked : index < (lines.take (index + contextLines + 1)).length := by simp; omega
  refine ⟨(Text.ofNat last).length, _, _, _, _, _, frameLines_eq within, ?_,
    (List.getElem?_map ..).trans (congrArg _ (List.getElem?_eq_getElem marked)), ?_, ?_, ?_⟩
  · rw [← List.map_take, ← List.map_drop]
    refine forall₂_numbered fun i bound => fits i ?_
    simp at bound
    omega
  · rw [List.getElem_take]
    exact isNumbered_numbered _ (lines[index], index) (fits index (by omega))
  · exact isRow_caretRow _ column
  · rw [← List.map_drop]
    refine forall₂_numbered fun i bound => fits i ?_
    simp at bound
    omega

/-- A frame shows a line and those around it only, without the blanks at their ends. -/
theorem IsFrame.congr {others rows : List Text} (frame : IsFrame lines index column rows)
    (same : (lines.take (index + contextLines + 1)).map (Text.trimEnd Text.isBlank) =
      (others.take (index + contextLines + 1)).map (Text.trimEnd Text.isBlank)) :
    IsFrame others index column rows := by
  simpa only [IsFrame, same] using frame

theorem feed_notMem_margin (other : mark ≠ .scalar '\n') (free : .scalar '\n' ∉ label) :
    .scalar '\n' ∉ margin width mark label := by
  simp [margin, padLeft, blanks, free, Ne.symm other]

theorem feed_notMem_numbered {entry : Text × Nat} (other : mark ≠ .scalar '\n')
    (free : .scalar '\n' ∉ entry.1) : .scalar '\n' ∉ numbered width mark entry := by
  have front : .scalar '\n' ∉ margin width mark (Text.ofNat (entry.2 + 1)) :=
    feed_notMem_margin other (Text.feed_notMem_ofNat _)
  intro mem
  have mem := (List.rdropWhile_prefix _ _).subset mem
  simp [front, free] at mem

/-- A row is one line of the frame. -/
theorem feed_notMem_frameLines (free : ∀ line ∈ lines, .scalar '\n' ∉ line) :
    ∀ row ∈ frameLines lines index column, .scalar '\n' ∉ row := by
  rw [frameLines_eq_flatMap]
  intro row mem
  obtain ⟨entry, mem, shown⟩ := List.mem_flatMap.1 mem
  have within := free entry.1
    (List.mem_of_mem_take (List.mem_of_mem_drop (List.fst_mem_of_mem_zipIdx mem)))
  rw [rowsOf] at shown
  split at shown
  · obtain rfl | shown := List.mem_cons.1 shown
    · exact feed_notMem_numbered (by decide) within
    · have front (width : Nat) : .scalar '\n' ∉ margin width (.scalar ' ') [] :=
        feed_notMem_margin (by decide) List.not_mem_nil
      rw [List.mem_singleton.1 shown]
      simp [caretRow, blanks, front]
  · rw [List.mem_singleton.1 shown]
    exact feed_notMem_numbered (by decide) within

theorem frame_attach {d : Diagnostic} {source : Text} (fresh : d.source = none) (filename : Text)
    (located : d.location = some ⟨(index + 1 : Nat), column⟩)
    (within : index < (Text.lines source).length) :
    (d.attach filename (some source)).frame =
      Text.join "\n" (frameLines (Text.lines source) index column) := by
  have first : ¬ ((index + 1 : Nat) : Int) < 1 := by omega
  have last : ¬ ((Text.lines source).length : Int) < (index + 1 : Nat) := by omega
  have back : (((index + 1 : Nat) : Int) - 1).toNat = index := by omega
  simp only [frame, attach, located, fresh, Option.or, first, last, back, or_self, if_false]

/-- **A frame shows the line that is meant**, as far as the two ways to count lines agree: for a
location in a line that line feeds count, the rows are a frame around the line of that number among
those that any end of a line counts, and around the line that is meant if no other end stands within
it, a line before it or the two lines after it. -/
theorem isFrame_attach {d : Diagnostic} {line column : Nat}
    (located : d.location = some ⟨line, column⟩) (fresh : d.source = none) (filename source : Text)
    (first : 1 ≤ line) (within : line ≤ (Text.feedLines source).length) :
    let rows := Text.splitOn (.scalar '\n') (d.attach filename (some source)).frame
    IsFrame (Text.lines source) (line - 1) column rows ∧
      ((∀ text ∈ (Text.feedLines source).take (line + contextLines), Text.IsUnbroken text) →
        IsFrame (Text.feedLines source) (line - 1) column rows) := by
  obtain ⟨index, rfl⟩ := Nat.exists_eq_add_of_le' first
  have counted : index < (Text.lines source).length :=
    Nat.lt_of_lt_of_le within (Text.length_feedLines_le source)
  have free : ∀ text ∈ Text.lines source, .scalar '\n' ∉ text := fun text mem feed =>
    absurd (Text.isLineEnd_of_mem_lines mem _ feed) (by decide)
  have some : frameLines (Text.lines source) index column ≠ [] := by
    rw [frameLines_eq counted]
    simp
  intro rows
  have rows_eq : rows = frameLines (Text.lines source) index column := by
    change Text.splitOn _ _ = _
    rw [frame_attach fresh filename located counted]
    exact Text.splitOn_join some (feed_notMem_frameLines free)
  have frame : IsFrame (Text.lines source) index column rows :=
    rows_eq ▸ isFrame_frameLines counted column
  refine ⟨frame, fun unbroken => frame.congr (Text.map_trimEnd_lines ?_)⟩
  rwa [Nat.add_right_comm] at unbroken

/-- Around the first line the frame of a text is as it should be; behind a line separator within a
line it marks another line than the one that is meant. -/
theorem isFrame_separatedSource :
    let source : Text := "a\r\nb\nc\nd\u2028e\nf"
    let d (line : Nat) : Diagnostic := { message := "m", location := some ⟨line, (0 : Nat)⟩ }
    let rows (line : Nat) : List Text :=
      Text.splitOn (.scalar '\n') ((d line).attach "a.ts" (some source)).frame
    IsFrame (Text.feedLines source) 0 0 (rows 1) ∧ IsFrame (Text.lines source) 4 0 (rows 5) ∧
      ¬ IsFrame (Text.feedLines source) 4 0 (rows 5) := by
  intro source d rows
  have top := isFrame_attach (d := d 1) rfl rfl "a.ts" source (by decide) (by decide)
  have bottom := isFrame_attach (d := d 5) rfl rfl "a.ts" source (by decide) (by decide)
  refine ⟨top.2 ?_, bottom.1, fun frame => ?_⟩
  · have begins : (Text.feedLines source).take (1 + contextLines) = ["a\r", "b", "c"] := by decide
    rw [begins]
    rintro text (_ | ⟨_, _ | ⟨_, _ | ⟨_, ⟨⟩⟩⟩⟩)
    · exact ⟨"a", by decide, .inr rfl⟩
    · exact ⟨"b", by decide, .inl rfl⟩
    · exact ⟨"c", by decide, .inl rfl⟩
  · obtain ⟨marked, n, one, meant⟩ := frame.filter_marked
    have shown : (rows 5).filter (·.head? = some (.scalar '>')) = ["> 5 | e"] := by decide
    have fifth : ((Text.feedLines source).map (Text.trimEnd Text.isBlank))[4]? =
        some ("f" : Text) := by decide
    obtain rfl := List.singleton_inj.1 (shown.symm.trans one)
    have mem : .scalar 'f' ∈ (("> 5 | e" : Text).drop n) := by
      rw [← Option.some.inj (fifth.symm.trans meant)]
      decide
    exact absurd (List.mem_of_mem_drop mem) (by decide)

end Diagnostic

end ElementWrapper
