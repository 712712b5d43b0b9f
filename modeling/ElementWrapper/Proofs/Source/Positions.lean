import ElementWrapper.Proofs.Source.Readers
import ElementWrapper.Source.Check

/-!
Positions in a source text. A position counts bytes and a location counts characters. One more
character leads from a location to the next one (`Location.behind_concat`), which stands behind it;
hence locations stand in the order of their places (`Location.behind_before`). Split at its line
feeds, a text has the place again that a location was taken of (`Location.offset?_behind`). At
every boundary between two characters the location that `Document.locationOf` finds is the one
behind the characters before it (`Document.locationOf_point`), and the position is the one that
a reader is at after these characters (`Document.point_advance`).
-/

namespace ElementWrapper

/-! ## Locations -/

namespace Location

variable {l m k : Location}

/-- The location stands before another one in a text. -/
def Before (l m : Location) : Prop := l.line < m.line ∨ l.line = m.line ∧ l.column < m.column

/-- The location after one more character. -/
def next (l : Location) (c : Char) : Location :=
  if c = '\n' then ⟨l.line + 1, 0⟩ else ⟨l.line, l.column + 1⟩

/-- The characters behind the last line feed. -/
def lastLine (before : List Char) : List Char := before.rtakeWhile (· != '\n')

/-- The location behind the characters at the beginning of a text. -/
def behind (before : List Char) : Location := ⟨1 + before.count '\n', (lastLine before).length⟩

/-- How many characters of a text stand before a location, the text being split at its line feeds;
nothing if the text has no such line or the line is shorter. -/
def offset? (source : List Char) : Location → Option Nat
  | ⟨.ofNat (row + 1), .ofNat column⟩ =>
    let lines := source.splitOn '\n'
    match lines[row]? with
    | some line =>
      if column ≤ line.length then some (((lines.take row).map (·.length + 1)).sum + column)
      else none
    | none => none
  | _ => none

theorem before_next (l : Location) (c : Char) : l.Before (l.next c) := by
  rw [Before, next]
  split
  · exact .inl (by dsimp only; omega)
  · exact .inr ⟨rfl, by dsimp only; omega⟩

theorem Before.trans (h : l.Before m) (hm : m.Before k) : l.Before k := by
  simp only [Before] at *
  omega

theorem Before.asymm (h : l.Before m) : ¬ m.Before l := by
  simp only [Before] at *
  omega

theorem lastLine_feed (before : List Char) : lastLine (before ++ ['\n']) = [] :=
  List.rtakeWhile_concat_neg _ _ _ (by decide)

theorem lastLine_concat {c : Char} (ne : c ≠ '\n') (before : List Char) :
    lastLine (before ++ [c]) = lastLine before ++ [c] :=
  List.rtakeWhile_concat_pos (· != '\n') _ _ (bne_iff_ne.2 ne)

/-- One more character leads to the next location. -/
theorem behind_concat (before : List Char) (c : Char) :
    behind (before ++ [c]) = (behind before).next c := by
  rw [behind, List.count_append, next]
  split
  · next feed =>
    rw [feed, lastLine_feed]
    rfl
  · next other =>
    rw [lastLine_concat other, List.length_append, List.count_singleton,
      if_neg (by simpa using other)]
    rfl

/-- The characters between two places lead from the one location to the other, one at a time. -/
theorem behind_before (before : List Char) {more : List Char} (some : more ≠ []) :
    (behind before).Before (behind (before ++ more)) := by
  induction more using List.reverseRecOn with
  | nil => exact absurd rfl some
  | append_singleton more c ih =>
    rw [← List.append_assoc, behind_concat]
    cases more with
    | nil =>
      rw [List.append_nil]
      exact before_next _ c
    | cons d more => exact (ih (List.cons_ne_nil d more)).trans (before_next _ c)

/-! ## Lines -/

/-- The lines of a text are those that end before a place, the line of the place, which goes on
behind it, and those behind. -/
theorem exists_lines (before : List Char) : ∃ lines : List (List Char),
    lines.length = before.count '\n' ∧
    (lines.map (·.length + 1)).sum + (lastLine before).length = before.length ∧
    ∀ after first others, after.splitOn '\n' = first :: others →
      (before ++ after).splitOn '\n' = lines ++ (lastLine before ++ first) :: others := by
  induction before using List.reverseRecOn with
  | nil => exact ⟨[], rfl, rfl, fun _ _ _ eq => eq⟩
  | append_singleton before c ih =>
    obtain ⟨lines, rows, length, split⟩ := ih
    by_cases feed : c = '\n'
    · subst feed
      refine ⟨lines ++ [lastLine before], ?_, ?_, fun after first others eq => ?_⟩
      · rw [List.length_append, rows, List.count_append]
        rfl
      · rw [lastLine_feed, List.map_append, List.sum_append, List.length_append, ← length]
        simp [Nat.add_assoc]
      · have step : ('\n' :: after).splitOn '\n' = [] :: first :: others := by
          rw [List.splitOn_cons_eq_if_modifyHead, if_pos (by decide), eq]
        rw [List.append_assoc, List.singleton_append, split _ _ _ step, lastLine_feed,
          List.append_nil, List.append_assoc]
        rfl
    · refine ⟨lines, ?_, ?_, fun after first others eq => ?_⟩
      · rw [rows, List.count_append, List.count_singleton, if_neg (by simpa using feed)]
        rfl
      · rw [lastLine_concat feed, List.length_append, List.length_append, ← length, Nat.add_assoc]
      · have step : (c :: after).splitOn '\n' = (c :: first) :: others := by
          rw [List.splitOn_cons_eq_if_modifyHead, if_neg (by simpa using feed), eq]
          rfl
        rw [List.append_assoc, List.singleton_append, split _ _ _ step, lastLine_concat feed,
          List.append_assoc]
        rfl

/-- A location leads back to its place. -/
theorem offset?_behind (before after : List Char) :
    (behind before).offset? (before ++ after) = some before.length := by
  obtain ⟨lines, rows, length, split⟩ := exists_lines before
  obtain ⟨first, others, eq⟩ := List.exists_cons_of_ne_nil (List.splitOn_ne_nil '\n' after)
  have number : (1 + before.count '\n' : Int) = .ofNat (lines.length + 1) := by
    rw [rows, Int.add_comm]
    rfl
  rw [behind, number, ← Int.ofNat_eq_natCast, offset?, split _ _ _ eq,
    List.getElem?_append_right (Nat.le_refl _), Nat.sub_self, List.getElem?_cons_zero]
  dsimp only
  rw [if_pos (by rw [List.length_append]; exact Nat.le_add_right ..), List.take_left, length]

end Location

namespace Source

open Utf8 (encode feed)
open Location (lastLine)

/-! ## Boundaries -/

/-- A number of bytes of a source text after which a character begins or the text ends. -/
def IsBoundary (source : List Char) (byte : Nat) : Prop :=
  ∃ before after, before ++ after = source ∧ (encode before).length = byte

variable {source : List Char} {start stop : Nat}

/-- Two boundaries cut a text in three. -/
theorem IsBoundary.exists_middle (hs : IsBoundary source start) (he : IsBoundary source stop)
    (le : start ≤ stop) : ∃ before middle after, before ++ middle ++ after = source ∧
      (encode before).length = start ∧ (encode (before ++ middle)).length = stop := by
  obtain ⟨before, after, rfl, rfl⟩ := hs
  obtain ⟨longer, rest, same, rfl⟩ := he
  obtain ⟨more, rfl, rfl⟩ | ⟨more, rfl, rfl⟩ := List.append_eq_append_iff.1 same
  · refine ⟨longer ++ more, [], after, by rw [List.append_nil], rfl, ?_⟩
    rw [List.append_nil]
    rw [Utf8.encode_append, List.length_append] at le ⊢
    omega
  · exact ⟨before, more, rest, same, rfl, rfl⟩

namespace Document

/-- The position behind some characters, in terms of these. -/
theorem point_eq (before after : List Char) :
    (ofChars (before ++ after)).point (encode before).length =
      ⟨(encode before).length, before.count '\n', (encode (lastLine before)).length⟩ := by
  have bytes : (ofChars (before ++ after)).bytes.take (encode before).length = encode before := by
    rw [ofChars, Utf8.encode_append, List.take_left]
  have last : ((encode before).reverse.takeWhile (· ≠ feed)).length =
      (encode (lastLine before)).length := by
    rw [lastLine, ← Utf8.rtakeWhile_encode, List.rtakeWhile, List.length_reverse]
    simp only [ne_eq, decide_not]
    rfl
  rw [point, bytes, ← Utf8.count_feed_encode, ← last]
  rfl

/-- The location of the point behind some text is the line and the column behind it. -/
theorem locationOf_point (before after : List Char) :
    let d := ofChars (before ++ after)
    d.locationOf (d.point (encode before).length) = .behind before := by
  have line : (ofChars (before ++ after)).slice
      ((encode before).length - (encode (lastLine before)).length) (encode before).length =
        lastLine before := by
    obtain ⟨front, split⟩ : ∃ front, front ++ lastLine before = before :=
      ⟨_, List.rdropWhile_append_rtakeWhile⟩
    generalize lastLine before = last at split ⊢
    subst split
    have start : (encode (front ++ last)).length - (encode last).length =
        (encode front).length := by
      rw [Utf8.encode_append, List.length_append, Nat.add_sub_cancel]
    rw [start, slice_middle]
  dsimp only
  rw [point_eq, locationOf, line, Location.behind, Int.add_comm]

theorem advance_append (before after : List Char) (point : Point) :
    (Cursor.mk point (before ++ after)).advance before.length =
      ⟨before.foldl Point.next point, after⟩ := by
  induction before generalizing point with
  | nil => rfl
  | cons c before ih => exact ih (point.next c)

/-- A reader that has gone through some characters is at the position after their bytes. -/
theorem point_advance (before after : List Char) :
    ((Cursor.mk .zero (before ++ after)).advance before.length).point =
      (ofChars (before ++ after)).point (encode before).length := by
  rw [advance_append, point_eq]
  dsimp only
  induction before using List.reverseRecOn with
  | nil => rfl
  | append_singleton before c ih =>
    rw [List.foldl_concat, ih, Point.next, Utf8.encode_concat, List.length_append,
      List.count_append]
    split
    · next feed =>
      rw [feed, Location.lastLine_feed]
      rfl
    · next other =>
      rw [Location.lastLine_concat other, Utf8.encode_concat, List.length_append,
        List.count_singleton, if_neg (by simpa using other), String.length_utf8EncodeChar]
      rfl

theorem before_of_lt (hs : IsBoundary source start) (he : IsBoundary source stop)
    (less : start < stop) : ((ofChars source).locationOf ((ofChars source).point start)).Before
      ((ofChars source).locationOf ((ofChars source).point stop)) := by
  obtain ⟨before, middle, after, rfl, rfl, rfl⟩ := hs.exists_middle he (Nat.le_of_lt less)
  rw [locationOf_point, List.append_assoc, locationOf_point]
  refine Location.behind_before before fun none => ?_
  rw [none, List.append_nil] at less
  exact absurd less (Nat.lt_irrefl _)

/-- **Locations are exact positions.** At every boundary between two characters of a source text the
location has one line more than there are line feeds before it, and its column is the number of
characters behind the last of them; split at its line feeds, the text has the same place at this
location. Locations stand in the order of the bytes before them, so that no two boundaries have the
same. The position that the location is found from is the one that a reader is at. -/
theorem location_exact (source : List Char) :
    let d := Document.ofChars source
    (∀ before after, before ++ after = source →
      ((Cursor.mk .zero source).advance before.length).point = d.point (encode before).length ∧
      d.locationOf (d.point (encode before).length) =
        ⟨1 + before.count '\n', (before.rtakeWhile (· != '\n')).length⟩ ∧
      (d.locationOf (d.point (encode before).length)).offset? source = some before.length) ∧
    ∀ first second, IsBoundary source first → IsBoundary source second →
      (first < second ↔
        (d.locationOf (d.point first)).Before (d.locationOf (d.point second))) ∧
      (d.locationOf (d.point first) = d.locationOf (d.point second) → first = second) := by
  refine ⟨?_, fun first second hf hs => ?_⟩
  · rintro before after rfl
    refine ⟨point_advance before after, locationOf_point before after, ?_⟩
    rw [locationOf_point]
    exact Location.offset?_behind before after
  have forward := before_of_lt hf hs
  have backward := before_of_lt hs hf
  refine ⟨⟨forward, fun earlier => ?_⟩, fun same => ?_⟩
  · obtain less | rfl | more := Nat.lt_trichotomy first second
    · exact less
    · exact absurd earlier earlier.asymm
    · exact absurd earlier (backward more).asymm
  · obtain less | eq | more := Nat.lt_trichotomy first second
    · have earlier := forward less
      rw [same] at earlier
      exact absurd earlier earlier.asymm
    · exact eq
    · have later := backward more
      rw [same] at later
      exact absurd later later.asymm

/-- Two boundaries of a text with characters of two, one and four bytes: one is in the first line,
behind two bytes, and the other in the second line, behind seven. -/
theorem location_exact_mixedWidths :
    let source := "é\n😀b".toList
    let d := Document.ofChars source
    d.locationOf (d.point 2) = ⟨1, 1⟩ ∧ d.locationOf (d.point 7) = ⟨2, 1⟩ ∧
      (⟨2, 1⟩ : Location).offset? source = some 3 ∧ (⟨1, 1⟩ : Location).Before ⟨2, 1⟩ := by
  obtain ⟨places, order⟩ := location_exact "é\n😀b".toList
  obtain ⟨-, first, -⟩ := places "é".toList "\n😀b".toList rfl
  obtain ⟨-, second, back⟩ := places "é\n😀".toList "b".toList rfl
  have before := (order 2 7 ⟨"é".toList, "\n😀b".toList, rfl, rfl⟩
    ⟨"é\n😀".toList, "b".toList, rfl, rfl⟩).1.1 (by decide)
  change Document.locationOf _ (point _ 2) = ⟨1, 1⟩ at first
  change Document.locationOf _ (point _ 7) = ⟨2, 1⟩ at second
  change Location.offset? _ (locationOf _ (point _ 7)) = some 3 at back
  rw [second] at back
  rw [first, second] at before
  exact ⟨first, second, back, before⟩

end Document

end Source

end ElementWrapper
