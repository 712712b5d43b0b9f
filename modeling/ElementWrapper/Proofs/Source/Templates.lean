import ElementWrapper.Proofs.Result
import ElementWrapper.Proofs.Source.Parsing
import ElementWrapper.Proofs.Source.Positions

/-!
The pieces of a template. A template is cut at its substitutions, which stand one after the other
between its back-quotes (`InOrder`). Behind whole characters a text can be cut anywhere
(`Document.slice_append`), so that the pieces and the substitutions, taken in turns, make up the
text between the back-quotes again (`Document.exists_pieces`).
-/

namespace ElementWrapper.Source

open Literal (EscapeError)
open Utf8 (encode)

/-- Trees stand one after the other between two bytes of a source text, each at boundaries of
characters. -/
def InOrder (source : List Char) (stop : Nat) : Nat → List Tree → Prop
  | start, [] => start ≤ stop
  | start, tree :: rest =>
    start ≤ tree.start.byte ∧ tree.start.byte ≤ tree.stop.byte ∧
      IsBoundary source tree.start.byte ∧ IsBoundary source tree.stop.byte ∧
        InOrder source stop tree.stop.byte rest

/-- A tree stands at boundaries of characters, and its text is a body between back-quotes. -/
structure IsQuoted (source : List Char) (tree : Tree) (body : List Char) : Prop where
  start : IsBoundary source tree.start.byte
  stop : IsBoundary source tree.stop.byte
  text : (Document.ofChars source).slice tree.start.byte tree.stop.byte = '`' :: body ++ ['`']

/-- The substitutions of a template. -/
def Tree.substitutions (tree : Tree) : List Tree :=
  tree.namedChildren.filter (·.kind = "template_substitution")

variable {source body : List Char} {start stop middle : Nat} {tree : Tree} {trees : List Tree}

theorem InOrder.le (h : InOrder source stop start trees) : start ≤ stop := by
  induction trees generalizing start with
  | nil => exact h
  | cons tree rest ih =>
    obtain ⟨before, within, -, -, others⟩ := h
    exact before.trans (within.trans (ih others))

/-- The body of a template begins behind the first back-quote and ends before the last one. -/
theorem IsQuoted.inner (h : IsQuoted source tree body) :
    IsBoundary source (tree.start.byte + 1) ∧
      (Document.ofChars source).slice (tree.start.byte + 1) (tree.stop.byte - 1) = body := by
  have le : tree.start.byte ≤ tree.stop.byte := by
    by_contra more
    have text := h.text
    rw [Document.slice, Nat.sub_eq_zero_of_le (by omega), List.take_zero, Utf8.decodeLossy] at text
    cases text
  obtain ⟨before, chars, after, split, start, stop⟩ := h.start.exists_middle h.stop le
  have text := h.text
  rw [← split, ← start, ← stop, Document.slice_middle] at text
  subst text
  have cut : before ++ ('`' :: body ++ ['`']) = before ++ ['`'] ++ body ++ ['`'] := by
    simp only [List.append_assoc, List.cons_append, List.nil_append]
  have quote : (encode ['`']).length = 1 := by decide
  have first : (encode (before ++ ['`'])).length = tree.start.byte + 1 := by
    rw [Utf8.encode_append, List.length_append, quote, start]
  have last : (encode (before ++ ['`'] ++ body)).length = tree.stop.byte - 1 := by
    rw [← stop, cut, Utf8.encode_append (before ++ ['`'] ++ body), List.length_append, quote,
      Nat.add_sub_cancel]
  have whole : before ++ ['`'] ++ body ++ ('`' :: after) = source := by
    rw [← split, cut, List.append_assoc _ ['`'] after]
    rfl
  refine ⟨⟨_, _, (List.append_assoc ..).symm.trans whole, first⟩, ?_⟩
  rw [← whole, ← first, ← last, Document.slice_middle]

namespace Document

/-- Behind whole characters a text can be cut. -/
theorem slice_append (hs : IsBoundary source start) (hm : IsBoundary source middle)
    (first : start ≤ middle) (second : middle ≤ stop) :
    (ofChars source).slice start stop =
      (ofChars source).slice start middle ++ (ofChars source).slice middle stop := by
  obtain ⟨before, chars, after, rfl, rfl, rfl⟩ := hs.exists_middle hm first
  have rest : (ofChars (before ++ chars ++ after)).bytes.drop (encode (before ++ chars)).length =
      encode after := by
    rw [ofChars, Utf8.encode_append (before ++ chars), List.drop_left]
  have whole : (ofChars (before ++ chars ++ after)).bytes.drop (encode before).length =
      encode chars ++ encode after := by
    rw [ofChars, List.append_assoc, Utf8.encode_append before, List.drop_left, Utf8.encode_append]
  have length : stop - (encode before).length =
      (encode chars).length + (stop - (encode (before ++ chars)).length) := by
    rw [Utf8.encode_append, List.length_append] at second ⊢
    omega
  rw [slice_middle, slice, whole, length, List.take_length_add_append, Utf8.decodeLossy_append,
    slice, rest]

/-- The pieces around substitutions that stand in order: one ahead of each and one behind the last,
which together with the substitutions are the text from one end to the other. -/
theorem exists_pieces (order : InOrder source stop start trees) (hs : IsBoundary source start) :
    let d := ofChars source
    ∃ (texts : List Text) (last : Text),
      d.quasis start stop trees =
        texts.map (fun text => .of (.quasi text false)) ++ [.of (.quasi last true)] ∧
      texts.length = trees.length ∧
      (List.zipWith (· ++ ·) texts (trees.map d.text)).flatten ++ last =
        Text.ofChars (d.slice start stop) := by
  dsimp only
  induction trees generalizing start with
  | nil => exact ⟨[], _, rfl, rfl, rfl⟩
  | cons tree rest ih =>
    obtain ⟨before, within, first, second, others⟩ := order
    obtain ⟨texts, last, pieces, length, joined⟩ := ih others second
    refine ⟨Text.ofChars ((ofChars source).slice start tree.start.byte) :: texts, last, ?_,
      congrArg (· + 1) length, ?_⟩
    · rw [quasis, pieces]
      rfl
    · rw [slice_append hs first before (within.trans others.le),
        slice_append first second within others.le, List.map_cons, List.zipWith_cons_cons,
        List.flatten_cons, List.append_assoc, joined, Text.ofChars, Text.ofChars, Text.ofChars,
        List.map_append, List.map_append, List.append_assoc]
      rfl

/-- **A template loses no text when it is cut in pieces.** Of a template whose substitutions stand
one after the other between its back-quotes there is one piece more than there are substitutions,
the last piece alone is marked as such, and the pieces with the texts of the substitutions between
them make up the text between the back-quotes. The template is read whenever its substitutions
are, and fails as the first of them does that fails. -/
theorem template_lossless (quoted : IsQuoted source tree body)
    (order : InOrder source (tree.stop.byte - 1) (tree.start.byte + 1) tree.substitutions)
    (read : Tree → Except EscapeError Node) :
    let d := ofChars source
    ∃ (texts : List Text) (last : Text),
      let pieces := texts.map (fun text => Node.of (.quasi text false)) ++ [.of (.quasi last true)]
      d.template read tree = (fun expressions => d.place tree (.template pieces expressions)) <$>
        tree.substitutions.mapM (d.firstOperand read) ∧
      (∀ expressions, tree.substitutions.mapM (d.firstOperand read) = .ok expressions →
        texts.length = expressions.length ∧ pieces.length = expressions.length + 1) ∧
      (List.zipWith (· ++ ·) texts (tree.substitutions.map d.text)).flatten ++ last =
        Text.ofChars body := by
  obtain ⟨first, inner⟩ := quoted.inner
  obtain ⟨texts, last, pieces, length, joined⟩ := exists_pieces order first
  refine ⟨texts, last, ?_, fun expressions read => ?_, by rw [joined, inner]⟩
  · rw [← pieces]
    rfl
  · have each := Except.length_of_mapM read
    rw [List.length_append, List.length_map, length, ← each]
    exact ⟨rfl, rfl⟩

/-- A template whose first piece has a character of two bytes. -/
def accentText : List Char := "`é$\x7ba\x7db`".toList

/-- The substitution goes from the third to the seventh of nine bytes. -/
theorem template_lossless_accent :
    ∃ root tree, parse accentText = some root ∧ Tree.Within tree root ∧
      tree.substitutions.map (fun part => (part.start.byte, part.stop.byte)) = [(3, 7)] ∧
      ∃ texts last, (List.zipWith (· ++ ·) texts
        (tree.substitutions.map (ofChars accentText).text)).flatten ++ last =
          ("é$\x7ba\x7db" : Text) := by
  have success : (parse accentText).any fun root => root.children.any fun statement =>
      statement.children.any fun tree => tree.start.byte = 0 && tree.stop.byte = 9 &&
        tree.substitutions.map (fun part => (part.start.byte, part.stop.byte)) = [(3, 7)] := by
    decide +kernel
  simp only [Option.any_eq_true, List.any_eq_true, Bool.and_eq_true, decide_eq_true_eq] at success
  obtain ⟨root, parsed, statement, first, tree, second, ⟨start, stop⟩, spans⟩ := success
  have boundary (before after : List Char) (split : before ++ after = accentText) :
      IsBoundary accentText (encode before).length := ⟨before, after, split, rfl⟩
  have quoted : IsQuoted accentText tree "é$\x7ba\x7db".toList := by
    constructor
    · rw [start]
      exact boundary [] accentText rfl
    · rw [stop]
      exact boundary accentText [] rfl
    · rw [start, stop]
      decide +kernel
  have order : InOrder accentText (tree.stop.byte - 1) (tree.start.byte + 1)
      tree.substitutions := by
    obtain ⟨part, eq, ends⟩ := List.map_eq_singleton_iff.1 spans
    obtain ⟨begins, ends⟩ := Prod.mk.inj ends
    simp only [eq, InOrder, start, stop, begins, ends]
    exact ⟨by decide, by decide, boundary "`é".toList _ rfl, boundary "`é$\x7ba\x7d".toList _ rfl,
      by decide⟩
  obtain ⟨texts, last, -, -, joined⟩ := template_lossless quoted order
    ((ofChars accentText).readWithin 1)
  exact ⟨root, tree, parsed, .part first (.part second .whole), spans, texts, last, joined⟩

end Document

end ElementWrapper.Source
