import ElementWrapper.Proofs.Text.Trimming

/-!
Two ways to count the lines of a text. Locations count line feeds (`feedLines`); `lines` knows the
other ends of a line as well, so that it has at least as many lines (`length_feedLines_le`). Where
no other end stands within a line the two agree (`map_trimEnd_lines`), but for the blanks at the
ends of the lines, among them the carriage return before a line feed.
-/

namespace ElementWrapper.Text

variable {c : CodePoint} {body line text rest : Text} {more : List Text}

/-- One more code point at the beginning of the first line. -/
def glue (c : CodePoint) : List Text → List Text
  | [] => [[c]]
  | line :: more => (c :: line) :: more

/-- The lines of a text that only line feeds end; a last line without an end counts only if it is
not empty. -/
def feedLines : Text → List Text
  | [] => []
  | c :: rest => if c = .scalar '\n' then [] :: feedLines rest else glue c (feedLines rest)

/-- There is no end of a line in a line but for a carriage return as its last code point. -/
def IsUnbroken (line : Text) : Prop :=
  ∃ body, (∀ c ∈ body, isLineEnd c = false) ∧ (line = body ∨ line = body ++ [.scalar '\r'])

theorem length_glue (c : CodePoint) (lines : List Text) :
    (glue c lines).length = max 1 lines.length := by
  cases lines with
  | nil => rfl
  | cons line more => simp [glue]

theorem mem_of_mem_glue {d : CodePoint} {lines : List Text} (mem : line ∈ glue c lines)
    (within : d ∈ line) : d = c ∨ ∃ line ∈ lines, d ∈ line := by
  cases lines with
  | nil =>
    obtain rfl := List.mem_singleton.1 mem
    exact .inl (List.mem_singleton.1 within)
  | cons first others =>
    obtain rfl | mem := List.mem_cons.1 mem
    · exact (List.mem_cons.1 within).imp_right fun within => ⟨first, List.mem_cons_self, within⟩
    · exact .inr ⟨line, List.mem_cons_of_mem _ mem, within⟩

/-! ## One code point more -/

/-- A code point that ends no line belongs to the first line. -/
theorem lines_of_not_isLineEnd (h : isLineEnd c = false) (rest : Text) :
    lines (c :: rest) = glue c (lines rest) := by
  rw [lines.eq_def]
  split
  · contradiction
  · next eq =>
    obtain ⟨rfl, -⟩ := List.cons.inj eq
    cases h
  · next eq =>
    obtain ⟨rfl, rfl⟩ := List.cons.inj eq
    rw [h, if_neg Bool.false_ne_true]
    cases rest with
    | nil => rfl
    | cons d rest => cases lines (d :: rest) <;> rfl

/-- A code point that ends a line leaves an empty line ahead of the others, unless a line feed
belongs to it. -/
theorem lines_of_isLineEnd (h : isLineEnd c)
    (alone : c = .scalar '\r' → rest.head? ≠ some (.scalar '\n')) :
    lines (c :: rest) = [] :: lines rest := by
  rw [lines.eq_def]
  split
  · contradiction
  · next eq =>
    obtain ⟨rfl, rfl⟩ := List.cons.inj eq
    exact absurd rfl (alone rfl)
  · next eq =>
    obtain ⟨rfl, rfl⟩ := List.cons.inj eq
    exact if_pos h

theorem lines_feed (rest : Text) : lines (.scalar '\n' :: rest) = [] :: lines rest :=
  lines_of_isLineEnd rfl fun same => absurd same (by decide)

/-- A carriage return before a line feed adds nothing to it. -/
theorem lines_returnFeed (rest : Text) :
    lines (.scalar '\r' :: .scalar '\n' :: rest) = lines (.scalar '\n' :: rest) := by
  rw [lines_feed, lines]

/-- What one more code point does to the lines of a text: it joins the first, ends one, or is half
of an end. -/
theorem lines_cons (c : CodePoint) (rest : Text) :
    isLineEnd c = false ∧ lines (c :: rest) = glue c (lines rest) ∨
      lines (c :: rest) = [] :: lines rest ∨
      c = .scalar '\r' ∧ rest.head? = some (.scalar '\n') ∧ lines (c :: rest) = lines rest := by
  cases ends : isLineEnd c with
  | false => exact .inl ⟨rfl, lines_of_not_isLineEnd ends rest⟩
  | true =>
    by_cases pair : c = .scalar '\r' ∧ rest.head? = some (.scalar '\n')
    · obtain ⟨rfl, feed⟩ := pair
      obtain ⟨rest, rfl⟩ := List.head?_eq_some_iff.1 feed
      exact .inr (.inr ⟨rfl, feed, lines_returnFeed rest⟩)
    · exact .inr (.inl (lines_of_isLineEnd ends fun same feed => pair ⟨same, feed⟩))

/-- No line holds an end of a line. -/
theorem isLineEnd_of_mem_lines (mem : line ∈ lines text) : ∀ d ∈ line, isLineEnd d = false := by
  intro d within
  induction text generalizing line with
  | nil => cases mem
  | cons c text ih =>
    obtain ⟨plain, eq⟩ | eq | ⟨-, -, eq⟩ := lines_cons c text
    · obtain rfl | ⟨line, mem, within⟩ := mem_of_mem_glue (eq ▸ mem) within
      · exact plain
      · exact ih mem within
    · obtain rfl | mem := List.mem_cons.1 (eq ▸ mem)
      · cases within
      · exact ih mem within
    · exact ih (eq ▸ mem) within

theorem feedLines_of_ne (ne : c ≠ .scalar '\n') (rest : Text) :
    feedLines (c :: rest) = glue c (feedLines rest) := if_neg ne

/-- There are no more lines by line feeds than there are by all ends of lines. -/
theorem length_feedLines_le (text : Text) : (feedLines text).length ≤ (lines text).length := by
  induction text with
  | nil => exact Nat.le_refl 0
  | cons c text ih =>
    have next : (feedLines (c :: text)).length ≤ (feedLines text).length + 1 := by
      rw [feedLines]
      split
      · exact Nat.le_refl _
      · rw [length_glue]
        omega
    obtain ⟨plain, eq⟩ | eq | ⟨rfl, feed, eq⟩ := lines_cons c text
    · have ne : c ≠ .scalar '\n' := by
        rintro rfl
        cases plain
      rw [eq, feedLines_of_ne ne, length_glue, length_glue]
      omega
    · rw [eq, List.length_cons]
      omega
    · obtain ⟨rest, rfl⟩ := List.head?_eq_some_iff.1 feed
      rw [eq, feedLines_of_ne (by decide), length_glue]
      have first : (feedLines (.scalar '\n' :: rest)).length = (feedLines rest).length + 1 := rfl
      omega

/-! ## Line by line -/

theorem lines_append (free : ∀ c ∈ body, isLineEnd c = false) (eq : lines rest = line :: more) :
    lines (body ++ rest) = (body ++ line) :: more := by
  induction body with
  | nil => exact eq
  | cons c body ih =>
    obtain ⟨first, others⟩ := List.forall_mem_cons.1 free
    rw [List.cons_append, lines_of_not_isLineEnd first, ih others]
    rfl

theorem lines_eq_singleton (free : ∀ c ∈ body, isLineEnd c = false) (some : body ≠ []) :
    lines body = [body] := by
  obtain ⟨front, last, rfl⟩ := (List.eq_nil_or_concat' body).resolve_left some
  have ends : lines [last] = [[last]] := by
    rw [lines_of_not_isLineEnd (free last (by simp))]
    rfl
  exact lines_append (fun c mem => free c (List.mem_append_left _ mem)) ends

/-- A line that a line feed ends is one line but for the blanks at its end. -/
theorem IsUnbroken.lines_append_feed (unbroken : IsUnbroken line) (rest : Text) :
    ∃ shown, lines (line ++ .scalar '\n' :: rest) = shown :: lines rest ∧
      trimEnd isBlank shown = trimEnd isBlank line := by
  obtain ⟨body, free, rfl | rfl⟩ := unbroken
  · refine ⟨line, ?_, rfl⟩
    rw [lines_append free (lines_feed rest), List.append_nil]
  · refine ⟨body, ?_, (trimEnd_concat_of_pos rfl body).symm⟩
    rw [List.append_assoc, List.singleton_append,
      lines_append free ((lines_returnFeed rest).trans (lines_feed rest)), List.append_nil]

theorem IsUnbroken.lines_eq (unbroken : IsUnbroken line) (some : line ≠ []) :
    ∃ shown, lines line = [shown] ∧ trimEnd isBlank shown = trimEnd isBlank line := by
  obtain ⟨body, free, rfl | rfl⟩ := unbroken
  · exact ⟨line, lines_eq_singleton free some, rfl⟩
  · refine ⟨body, ?_, (trimEnd_concat_of_pos rfl body).symm⟩
    rw [lines_append free (rfl : lines [.scalar '\r'] = [[]]), List.append_nil]
    rfl

theorem eq_nil_of_feedLines (none : feedLines text = []) : text = [] := by
  cases text with
  | nil => rfl
  | cons c text =>
    rw [feedLines] at none
    split at none
    · cases none
    · have length := length_glue c (feedLines text)
      rw [none, List.length_nil] at length
      omega

/-- The first line goes up to the first line feed, or it is the whole text. -/
theorem feedLines_eq_cons (eq : feedLines text = line :: more) :
    (∃ rest, text = line ++ .scalar '\n' :: rest ∧ feedLines rest = more) ∨
      text = line ∧ line ≠ [] ∧ more = [] := by
  induction text generalizing line with
  | nil => cases eq
  | cons c text ih =>
    rw [feedLines] at eq
    split at eq
    · next feed =>
      obtain ⟨rfl, rfl⟩ := List.cons.inj eq
      exact .inl ⟨text, by rw [feed]; rfl, rfl⟩
    · cases below : feedLines text with
      | nil =>
        rw [below] at eq
        obtain ⟨rfl, rfl⟩ := List.cons.inj eq
        exact .inr ⟨by rw [eq_nil_of_feedLines below], nofun, rfl⟩
      | cons first others =>
        rw [below] at eq
        obtain ⟨rfl, rfl⟩ := List.cons.inj eq
        obtain ⟨rest, rfl, rfl⟩ | ⟨rfl, -, rfl⟩ := ih below
        · exact .inl ⟨rest, rfl, rfl⟩
        · exact .inr ⟨rfl, nofun, rfl⟩

/-- The two ways to count agree as far as no line is broken. -/
theorem map_trimEnd_lines {n : Nat} (unbroken : ∀ line ∈ (feedLines text).take n, IsUnbroken line) :
    ((lines text).take n).map (trimEnd isBlank) =
      ((feedLines text).take n).map (trimEnd isBlank) := by
  induction n generalizing text with
  | zero => rfl
  | succ n ih =>
    cases eq : feedLines text with
    | nil =>
      rw [eq_nil_of_feedLines eq]
      rfl
    | cons line more =>
      rw [eq, List.take_succ_cons] at unbroken
      obtain ⟨first, others⟩ := List.forall_mem_cons.1 unbroken
      obtain ⟨rest, rfl, rfl⟩ | ⟨rfl, some, rfl⟩ := feedLines_eq_cons eq
      · obtain ⟨shown, lines_eq, trimmed⟩ := first.lines_append_feed rest
        rw [lines_eq, List.take_succ_cons, List.take_succ_cons, List.map_cons, List.map_cons,
          trimmed, ih others]
      · obtain ⟨shown, lines_eq, trimmed⟩ := first.lines_eq some
        rw [lines_eq, List.take_succ_cons, List.take_succ_cons, List.map_cons, List.map_cons,
          trimmed, List.take_nil]

end ElementWrapper.Text
