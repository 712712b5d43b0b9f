import ElementWrapper.Proofs.Source.Lexing
import ElementWrapper.Proofs.Text.Utf8
import ElementWrapper.Source.Parser

/-!
What the readers of the grammar yield.
-/

namespace ElementWrapper.Source

/-! ## Places in a text -/

theorem Document.slice_middle (before middle after : List Char) :
    (ofChars (before ++ middle ++ after)).slice (Utf8.encode before).length
      (Utf8.encode (before ++ middle)).length = middle := by
  have bytes : (ofChars (before ++ middle ++ after)).bytes =
      Utf8.encode before ++ (Utf8.encode middle ++ Utf8.encode after) := by
    rw [ofChars, List.append_assoc, Utf8.encode_append, Utf8.encode_append]
  rw [slice, bytes, Utf8.encode_append, List.length_append, Nat.add_sub_cancel_left,
    List.drop_left, List.take_left, Utf8.decodeLossy_encode]

/-- The cursor is a place in a source text. -/
def Cursor.In (source : List Char) (cursor : Cursor) : Prop :=
  ∃ before, before ++ cursor.rest = source ∧ cursor.point.byte = (Utf8.encode before).length

namespace Cursor

variable {source : List Char} {cursor : Cursor}

theorem in_start (source : List Char) : (⟨.zero, source⟩ : Cursor).In source := ⟨[], rfl, rfl⟩

theorem advance_succ (n : Nat) (point : Point) (c : Char) (rest : List Char) :
    advance (n + 1) ⟨point, c :: rest⟩ = advance n ⟨point.next c, rest⟩ := rfl

theorem rest_advance (n : Nat) (cursor : Cursor) :
    (cursor.advance n).rest = cursor.rest.drop n := by
  induction n generalizing cursor with
  | zero => rfl
  | succ n ih =>
    obtain ⟨point, rest⟩ := cursor
    cases rest with
    | nil => rfl
    | cons c rest => rw [advance_succ, ih, List.drop_succ_cons]

theorem byte_next (point : Point) (c : Char) :
    (point.next c).byte = point.byte + (Utf8.encode [c]).length := by
  have length : (Utf8.encode [c]).length = c.utf8Size := by
    simp [Utf8.encode, String.length_utf8EncodeChar]
  rw [length, Point.next]
  split
  · next line => rw [line]; rfl
  · rfl

/-- A cursor goes on by the bytes of the characters that it passes. -/
theorem byte_advance (n : Nat) (cursor : Cursor) : (cursor.advance n).point.byte =
    cursor.point.byte + (Utf8.encode (cursor.rest.take n)).length := by
  induction n generalizing cursor with
  | zero => rfl
  | succ n ih =>
    obtain ⟨point, rest⟩ := cursor
    cases rest with
    | nil => rfl
    | cons c rest =>
      have split : c :: rest.take n = [c] ++ rest.take n := rfl
      rw [advance_succ, ih, byte_next, List.take_succ_cons, split, Utf8.encode_append,
        List.length_append, Nat.add_assoc]

theorem In.advance (h : cursor.In source) (n : Nat) : (cursor.advance n).In source := by
  obtain ⟨before, rfl, byte⟩ := h
  refine ⟨before ++ cursor.rest.take n, ?_, ?_⟩
  · rw [rest_advance, List.append_assoc, List.take_append_drop]
  · rw [byte_advance, byte, Utf8.encode_append, List.length_append]

/-- What stands between a cursor and the place after some more characters. -/
theorem In.slice (h : cursor.In source) (n : Nat) :
    (Document.ofChars source).slice cursor.point.byte (cursor.advance n).point.byte =
      cursor.rest.take n := by
  obtain ⟨before, rfl, byte⟩ := h
  have split : before ++ cursor.rest = before ++ cursor.rest.take n ++ cursor.rest.drop n := by
    rw [List.append_assoc, List.take_append_drop]
  rw [split, byte_advance, byte, ← List.length_append, ← Utf8.encode_append]
  exact Document.slice_middle before (cursor.rest.take n) (cursor.rest.drop n)

end Cursor

/-! ## Readers -/

/-- What has been read so far are trees with tokens, up to places in the text. -/
def Remembers (source : List Char) (readings : Readings) : Prop :=
  ∀ byte goal tree after, (goal, some (tree, after)) ∈ readings.getD byte [] →
    Tokenized (.ofChars source) tree ∧ after.In source

variable {source : List Char} {α β : Type} {P : α → Prop} {Q : β → Prop} {cursor : Cursor}

/-- Whatever a reader yields at a place of a text has a property. -/
def YieldsAt (source : List Char) (cursor : Cursor) (reader : Reader α) (P : α → Prop) : Prop :=
  cursor.In source → ∀ readings, Remembers source readings →
    Remembers source (reader cursor readings).2 ∧
      ∀ value after, (reader cursor readings).1 = some (value, after) → P value ∧ after.In source

/-- Whatever a reader yields in a text has a property. -/
def Yields (source : List Char) (reader : Reader α) (P : α → Prop) : Prop :=
  ∀ cursor, YieldsAt source cursor reader P

theorem run_bind (x : Reader α) (f : α → Reader β) (cursor : Cursor) (readings : Readings) :
    (x >>= f) cursor readings = match x cursor readings with
      | (some (a, after), readings) => f a after readings
      | (none, readings) => (none, readings) := by
  simp only [Bind.bind, StateT.bind, OptionT.bind, OptionT.mk]
  rcases x cursor readings with ⟨_ | ⟨a, after⟩, readings⟩
  · rfl
  · rfl

theorem run_orElse (first second : Reader α) (cursor : Cursor) (readings : Readings) :
    (first <|> second) cursor readings = match first cursor readings with
      | (some result, readings) => (some result, readings)
      | (none, readings) => second cursor readings := by
  simp only [HOrElse.hOrElse, OrElse.orElse, Alternative.orElse, StateT.orElse, OptionT.orElse,
    OptionT.mk, Bind.bind, StateT.bind]
  rcases first cursor readings with ⟨_ | ⟨a, after⟩, readings⟩
  · rfl
  · rfl

namespace YieldsAt

variable {x : Reader α}

theorem imp (h : YieldsAt source cursor x P) {R : α → Prop} (imp : ∀ a, P a → R a) :
    YieldsAt source cursor x R := by
  intro here readings known
  obtain ⟨known, yields⟩ := h here readings known
  exact ⟨known, fun a after eq => (yields a after eq).imp_left (imp a)⟩

theorem pure {a : α} (h : P a) : YieldsAt source cursor (Pure.pure a) P := by
  intro here readings known
  refine ⟨known, fun _ _ eq => ?_⟩
  obtain ⟨rfl, rfl⟩ := Prod.mk.inj (Option.some.inj eq)
  exact ⟨h, here⟩

theorem failure : YieldsAt source cursor (Alternative.failure : Reader α) P :=
  fun _ _ known => ⟨known, nofun⟩

theorem bind {f : α → Reader β} (hx : YieldsAt source cursor x P)
    (hf : ∀ a, P a → Yields source (f a) Q) : YieldsAt source cursor (x >>= f) Q := by
  intro here readings known
  obtain ⟨known, yields⟩ := hx here readings known
  rw [run_bind]
  generalize x cursor readings = outcome at known yields ⊢
  obtain ⟨_ | ⟨a, after⟩, readings⟩ := outcome
  · exact ⟨known, nofun⟩
  · obtain ⟨own, there⟩ := yields a after rfl
    exact hf a own after there readings known

theorem orElse {y : Reader α} (hx : YieldsAt source cursor x P) (hy : YieldsAt source cursor y P) :
    YieldsAt source cursor (x <|> y) P := by
  intro here readings known
  obtain ⟨known, yields⟩ := hx here readings known
  rw [run_orElse]
  generalize x cursor readings = outcome at known yields ⊢
  obtain ⟨_ | result, readings⟩ := outcome
  · exact hy here readings known
  · exact ⟨known, yields⟩

/-- A reader that looks at what comes next. -/
theorem upcoming {f : List Char → Reader β} (h : YieldsAt source cursor (f cursor.rest) Q) :
    YieldsAt source cursor (Source.upcoming >>= f) Q := by
  intro here readings known
  rw [run_bind]
  exact h here readings known

theorem require {condition : Bool} {f : Unit → Reader β}
    (h : condition = true → YieldsAt source cursor (f ()) Q) :
    YieldsAt source cursor (Source.require condition >>= f) Q := by
  intro here readings known
  rw [run_bind]
  cases condition with
  | false => exact ⟨known, nofun⟩
  | true => exact h rfl here readings known

theorem get {f : Cursor → Reader β} (h : cursor.In source → YieldsAt source cursor (f cursor) Q) :
    YieldsAt source cursor (MonadState.get >>= f) Q := by
  intro here readings known
  rw [run_bind]
  exact h here here readings known

end YieldsAt

namespace Yields

variable {x : Reader α}

theorem imp (h : Yields source x P) {R : α → Prop} (imp : ∀ a, P a → R a) : Yields source x R :=
  fun cursor => (h cursor).imp imp

theorem pure {a : α} (h : P a) : Yields source (Pure.pure a) P := fun _ => .pure h

theorem failure : Yields source (Alternative.failure : Reader α) P := fun _ => .failure

theorem bind {f : α → Reader β} (hx : Yields source x P) (hf : ∀ a, P a → Yields source (f a) Q) :
    Yields source (x >>= f) Q := fun cursor => (hx cursor).bind hf

theorem orElse {y : Reader α} (hx : Yields source x P) (hy : Yields source y P) :
    Yields source (x <|> y) P := fun cursor => (hx cursor).orElse (hy cursor)

theorem upcoming {f : List Char → Reader β} (h : ∀ rest, Yields source (f rest) Q) :
    Yields source (Source.upcoming >>= f) Q := fun cursor => .upcoming (h cursor.rest cursor)

theorem require {condition : Bool} {f : Unit → Reader β}
    (h : condition = true → Yields source (f ()) Q) :
    Yields source (Source.require condition >>= f) Q :=
  fun cursor => .require fun holds => h holds cursor

theorem get {f : Cursor → Reader β} (h : ∀ cursor, cursor.In source → Yields source (f cursor) Q) :
    Yields source (MonadState.get >>= f) Q := fun cursor => .get fun here => h cursor here cursor

/-- The cursor is set back to a place in the text. -/
theorem set {before : Cursor} (here : before.In source) {f : PUnit → Reader β}
    (h : Yields source (f ⟨⟩) Q) : Yields source (MonadState.set before >>= f) Q := by
  intro cursor _ readings known
  rw [run_bind]
  exact h before here readings known

theorem advance {n : Cursor → Nat} {f : PUnit → Reader β} (h : Yields source (f ⟨⟩) Q) :
    Yields source ((modify fun cursor => cursor.advance (n cursor)) >>= f) Q := by
  intro cursor here readings known
  rw [run_bind]
  exact h _ (here.advance _) readings known

end Yields

/-! ## Trees with tokens -/

/-- All trees of a list have tokens. -/
def Forest (source : List Char) (trees : List Tree) : Prop :=
  ∀ tree ∈ trees, Tokenized (.ofChars source) tree

theorem forest_append {first second : List Tree} :
    Forest source (first ++ second) ↔ Forest source first ∧ Forest source second :=
  List.forall_mem_append

theorem forest_cons {tree : Tree} {rest : List Tree} :
    Forest source (tree :: rest) ↔ Tokenized (.ofChars source) tree ∧ Forest source rest :=
  List.forall_mem_cons

theorem forest_nil : Forest source [] := nofun

/-- Every tree that a rule yields has tokens. -/
def Sound (source : List Char) (rule : Rule) : Prop := Yields source rule (Forest source)

/-- Every tree that a reader yields has tokens. -/
def SoundTree (source : List Char) (reader : Reader Tree) : Prop :=
  Yields source reader (Tokenized (.ofChars source))

theorem YieldsAt.token {kind : String} {named : Bool} {length : Nat}
    (lexeme : Lexeme kind (cursor.rest.take length)) :
    YieldsAt source cursor (token kind named length) fun tree =>
      Tokenized (.ofChars source) tree ∧ tree.kind = kind := by
  intro here readings known
  refine ⟨known, fun tree after eq => ?_⟩
  obtain ⟨rfl, rfl⟩ := Prod.mk.inj (Option.some.inj eq)
  have fits : Fits (.ofChars source)
      (.node kind named false none cursor.point (cursor.advance length).point []) :=
    lexeme.fits (congrArg Text.ofChars (here.slice length))
  exact ⟨⟨.node fits nofun, rfl⟩, here.advance length⟩

theorem Yields.skipSpace {f : Unit → Reader β} (h : Yields source (f ()) Q) :
    Yields source (Source.skipSpace >>= f) Q := .advance h

/-- A token that begins here. -/
theorem YieldsAt.single {kind : String} {named : Bool} {length : Nat}
    (lexeme : Lexeme kind (cursor.rest.take length)) :
    YieldsAt source cursor (do return [← Source.token kind named length]) (Forest source) :=
  (token lexeme).bind fun _ h => .pure (List.forall_mem_singleton.2 h.1)

/-- A comment that begins here. -/
theorem YieldsAt.comment {n : Nat} (h : commentLength cursor.rest = some n) {rule : Rule}
    (hr : Sound source rule) :
    YieldsAt source cursor
      (do return (← Source.token Tree.commentKind true n) :: (← rule)) (Forest source) :=
  (token (.of_comment h)).bind fun _ ht => .bind hr fun _ hs => .pure (forest_cons.2 ⟨ht.1, hs⟩)

theorem sound_commentsWithin (fuel : Nat) : Sound source (commentsWithin fuel) := by
  induction fuel with
  | zero => exact .pure forest_nil
  | succ fuel ih =>
    refine .skipSpace fun cursor => .upcoming ?_
    split
    · next comment => exact .comment comment ih
    · exact .pure forest_nil

theorem sound_comments : Sound source comments := .upcoming fun _ => sound_commentsWithin _

end ElementWrapper.Source
