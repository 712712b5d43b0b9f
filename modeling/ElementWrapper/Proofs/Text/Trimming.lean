import ElementWrapper.Text.Blank
import Mathlib.Data.List.DropRight

/-!
Text without the code points of a class at its end, taken apart from its end: a last code point of
the class is dropped (`trimEnd_concat_of_pos`) and any other keeps all that is before it
(`trimEnd_append`). Without the blanks at both ends a text is what stands between them
(`isBetweenBlanks_trim`).
-/

namespace ElementWrapper.Text

variable {test : CodePoint → Bool} {c : CodePoint}

theorem trimEnd_concat_of_pos (h : test c) (text : Text) :
    trimEnd test (text ++ [c]) = trimEnd test text := List.rdropWhile_concat_pos _ _ _ h

theorem trimEnd_concat_of_neg (h : test c = false) (text : Text) :
    trimEnd test (text ++ [c]) = text ++ [c] := List.rdropWhile_concat_neg _ _ _ (by simp [h])

theorem trimEnd_append (h : test c = false) (front rest : Text) :
    trimEnd test (front ++ c :: rest) = front ++ c :: trimEnd test rest := by
  induction rest using List.reverseRecOn with
  | nil => exact trimEnd_concat_of_neg h front
  | append_singleton rest d ih =>
    have last : front ++ c :: (rest ++ [d]) = (front ++ c :: rest) ++ [d] := by simp
    cases drop : test d with
    | true => rw [last, trimEnd_concat_of_pos drop, trimEnd_concat_of_pos drop, ih]
    | false => rw [trimEnd_concat_of_neg drop, last, trimEnd_concat_of_neg drop]

/-- What is left of a text behind its first code point. -/
theorem drop_trimEnd_cons (c : CodePoint) (rest : Text) :
    (trimEnd test (c :: rest)).drop 1 = trimEnd test rest := by
  induction rest using List.reverseRecOn with
  | nil =>
    change (List.rdropWhile test [c]).drop 1 = []
    rw [List.rdropWhile_singleton]
    split <;> rfl
  | append_singleton rest d ih =>
    cases drop : test d with
    | true => rw [← List.cons_append, trimEnd_concat_of_pos drop, trimEnd_concat_of_pos drop, ih]
    | false =>
      rw [← List.cons_append, trimEnd_concat_of_neg drop, trimEnd_concat_of_neg drop]
      rfl

/-! ## Both ends -/

/-- A text is another one with blanks before it and behind it, and has no blank at its own ends. -/
structure IsBetweenBlanks (body text : Text) : Prop where
  around : ∃ front back, text = front ++ body ++ back ∧ (∀ c ∈ front, isBlank c) ∧
    ∀ c ∈ back, isBlank c
  first : ∀ c ∈ body.head?, isBlank c = false
  last : ∀ c ∈ body.getLast?, isBlank c = false

/-- What trimming leaves stands between blanks and neither begins nor ends with one. -/
theorem isBetweenBlanks_trim (text : Text) : IsBetweenBlanks (trim text) text where
  around := by
    refine ⟨text.takeWhile isBlank, (text.dropWhile isBlank).rtakeWhile isBlank, ?_,
      fun c mem => List.mem_takeWhile_imp mem, fun c mem => List.mem_rtakeWhile_imp mem⟩
    have behind : trim text ++ (text.dropWhile isBlank).rtakeWhile isBlank =
        text.dropWhile isBlank := List.rdropWhile_append_rtakeWhile ..
    rw [List.append_assoc, behind, List.takeWhile_append_dropWhile]
  first c head := by
    obtain ⟨rest, split⟩ : trim text <+: text.dropWhile isBlank := List.rdropWhile_prefix ..
    have whole : (text.dropWhile isBlank).head? = some c := by
      rw [← split, List.head?_append, Option.mem_def.1 head, Option.some_or]
    have stops := List.head?_dropWhile_not isBlank text
    rw [whole] at stops
    exact stops
  last c last := by
    have some : trim text ≠ [] := fun none => by simp [none] at last
    have stops := List.rdropWhile_last_not isBlank _ some
    obtain rfl : (trim text).getLast some = c :=
      Option.some.inj ((List.getLast?_eq_some_getLast some).symm.trans last)
    exact Bool.eq_false_iff.2 stops

end ElementWrapper.Text
