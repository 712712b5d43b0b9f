import ElementWrapper.Source.Goal
import ElementWrapper.Source.Tree
import Std.Data.TreeMap

/-!
Reading a source text. A `Cursor` is a place in the text with what is left of it; a `Reader` moves
the cursor or fails. Alternatives are tried in their order, and those that begin alike come upon the
same goals again; hence a reader carries along the readings of the goals so far, those that failed
among them, and `recalled` reads a goal at most once at each place. A rule of the grammar is a
`Rule`, a reader that yields the children it adds to the construct being read.

Between two tokens there may be blanks and comments. A rule begins at its first token and ends right
after its last one, and `Rule.seq` puts the comments between its parts among the children. Hence a
comment belongs to the innermost construct that has tokens on both sides of it.

A statement may end without a semicolon; `endsStatement` tells where one is put in.
-/

namespace ElementWrapper.Source

/-- A place in a source text and the characters after it. -/
structure Cursor where
  point : Point
  rest : List Char

/-- The point after one more character. -/
def Point.next (p : Point) (c : Char) : Point :=
  if c = '\n' then ⟨p.byte + 1, p.row + 1, 0⟩
  else ⟨p.byte + c.utf8Size, p.row, p.column + c.utf8Size⟩

/-- The cursor after a number of characters. -/
def Cursor.advance : Nat → Cursor → Cursor
  | 0, cursor => cursor
  | _ + 1, ⟨point, []⟩ => ⟨point, []⟩
  | n + 1, ⟨point, c :: rest⟩ => Cursor.advance n ⟨point.next c, rest⟩

/-- For each number of bytes what came of reading goals after them: nothing, or a tree and the place
after it. -/
abbrev Readings := Std.TreeMap Nat (List (Goal × Option (Tree × Cursor)))

/-- A reader moves the cursor and yields a value, or fails. The readings stay even if it fails. -/
abbrev Reader := StateT Cursor (OptionT (StateM Readings))

/-- A rule yields the children that it adds to a construct. -/
abbrev Rule := Reader (List Tree)

/-! ## Characters -/

/-- A character that may stand between two tokens. -/
def isSpace (c : Char) : Bool :=
  let n := c.toNat
  (9 ≤ n && n ≤ 13) || [0x20, 0x85, 0xA0, 0x1680, 0x2028, 0x2029, 0x202F, 0x205F, 0x3000, 0xFEFF,
    0x2060].contains n || (0x2000 ≤ n && n ≤ 0x200B)

/-- The characters of ASCII that end a word. -/
def punctuation : List Char :=
  [':', ';', '`', '"', '\'', '@', '#', '.', ',', '|', '^', '&', '<', '=', '>', '+', '-', '*', '/',
   '\\', '%', '?', '!', '~', '(', ')', '[', ']', '\x7b', '\x7d']

/-- A character that a word may go on with. -/
def isWordPart (c : Char) : Bool := 0x20 < c.toNat && !isSpace c && !punctuation.contains c

/-- A digit of base sixteen. -/
def isHexDigit (c : Char) : Bool := c.isDigit || ('a' ≤ c && c ≤ 'f') || ('A' ≤ c && c ≤ 'F')

/-- A character that ends a line comment. -/
def endsComment (c : Char) : Bool := ['\n', '\r', '\u2028', '\u2029'].contains c

/-! ## Lengths of tokens -/

/-- The length of a numeric escape after its backslash and its `u`. -/
def codePointEscape : List Char → Option Nat
  | '\x7b' :: rest =>
    let digits := rest.takeWhile isHexDigit
    if digits.isEmpty then none
    else match rest.drop digits.length with
      | '\x7d' :: _ => some (digits.length + 2)
      | _ => none
  | rest => if (rest.take 4).all isHexDigit && 4 ≤ rest.length then some 4 else none

/-- The length of the longest word that goes on here; a numeric escape may stand in a word. -/
def wordTail : Nat → List Char → Nat
  | 0, _ => 0
  | fuel + 1, '\\' :: 'u' :: rest =>
    match codePointEscape rest with
    | some n => n + 2 + wordTail fuel (rest.drop n)
    | none => 0
  | fuel + 1, c :: rest => if isWordPart c then 1 + wordTail fuel rest else 0
  | _ + 1, [] => 0

/-- The length of the word that begins here. -/
def wordLength (rest : List Char) : Nat :=
  match rest with
  | c :: _ => if c.isDigit then 0 else wordTail rest.length rest
  | [] => 0

/-- The word that begins here. -/
def wordAt (rest : List Char) : List Char := rest.take (wordLength rest)

/-- The length of a block comment after its opening. -/
def blockCommentTail : List Char → Option Nat
  | '*' :: '/' :: _ => some 2
  | _ :: rest => (· + 1) <$> blockCommentTail rest
  | [] => none

/-- The length of the comment that begins here. -/
def commentLength : List Char → Option Nat
  | '/' :: '/' :: rest => some ((rest.takeWhile (!endsComment ·)).length + 2)
  | '/' :: '*' :: rest => (· + 2) <$> blockCommentTail rest
  | _ => none

/-! ## Semicolons that are not written -/

/-- A blank for the decision whether a statement ends. -/
def isLayout (c : Char) : Bool :=
  let n := c.toNat
  (9 ≤ n && n ≤ 13) || [0x20, 0x1680, 0x2028, 0x2029, 0x205F, 0x3000].contains n ||
    (0x2000 ≤ n && n ≤ 0x2006) || (0x2008 ≤ n && n ≤ 0x200A)

/-- A letter for the decision whether a word is an operator. -/
def isLetter (c : Char) : Bool := c.isAlpha || 0x80 ≤ c.toNat

/-- What follows the blanks and comments here; nothing if a slash begins no comment. -/
def afterLayout : Nat → List Char → Option (List Char)
  | 0, rest => some rest
  | fuel + 1, rest =>
    match rest.dropWhile isLayout with
    | '/' :: '/' :: more => afterLayout fuel (more.dropWhile (· ≠ '\n'))
    | '/' :: '*' :: more => afterLayout fuel (more.drop ((blockCommentTail more).getD more.length))
    | '/' :: _ => none
    | more => some more

/-- Whether a statement that could go on ends before a token on a new line. In an expression an
opening bracket goes on; before a body a brace does. -/
def startsStatement (inExpression beforeBody : Bool) : List Char → Bool
  | '`' :: _ | ',' :: _ | '.' :: _ | ';' :: _ | '*' :: _ | '%' :: _ | '>' :: _ | '<' :: _ | '=' :: _
  | '?' :: _ | '^' :: _ | '|' :: _ | '&' :: _ | '/' :: _ | ':' :: _ => false
  | '\x7b' :: _ => !beforeBody
  | '(' :: _ | '[' :: _ => !inExpression
  | '+' :: rest => rest.head? = some '+'
  | '-' :: rest => rest.head? = some '-'
  | '!' :: rest => rest.head? ≠ some '='
  | 'i' :: 'n' :: rest =>
    let continues (rest : List Char) := rest.head?.any isLetter
    continues rest && (!"stanceof".toList.isPrefixOf rest || continues (rest.drop 8))
  | _ => true

/-- Whether a statement that could go on ends here without a semicolon: before a closing brace, at
the end of the text, or before a line that begins with a token that cannot go on with it. -/
def endsStatement (inExpression beforeBody : Bool) : List Char → Bool
  | [] => true
  | '\x00' :: _ => true
  | '\x7d' :: rest =>
    if (rest.dropWhile isLayout).head? = some ':' then inExpression else true
  | '\n' :: rest =>
    match afterLayout rest.length rest with
    | some next => startsStatement inExpression beforeBody next
    | none => false
  | c :: rest => isLayout c && endsStatement inExpression beforeBody rest

/-! ## Readers -/

/-- A goal read by a reader, unless it has been read at this place before. -/
def recalled (goal : Goal) (reader : Reader Tree) : Reader Tree := fun cursor readings =>
  let byte := cursor.point.byte
  match (readings.getD byte []).lookup goal with
  | some result => (result, readings)
  | none =>
    let (result, readings) := reader cursor readings
    (result, readings.insert byte ((goal, result) :: readings.getD byte []))

/-- The characters after the cursor. -/
def upcoming : Reader (List Char) := do return (← get).rest

/-- The reader fails unless a condition holds. -/
def require (condition : Bool) : Reader Unit := if condition then pure () else failure

/-- The next characters as one token. -/
def token (kind : String) (named : Bool) (length : Nat) : Reader Tree := do
  let before ← get
  let after := before.advance length
  set after
  return .node kind named false none before.point after.point []

/-- The blanks before the next token or comment are skipped. -/
def skipSpace : Reader Unit := modify fun cursor =>
  cursor.advance (cursor.rest.takeWhile isSpace).length

/-- The comments before the next token, at most `fuel` of them. -/
def commentsWithin : Nat → Rule
  | 0 => pure []
  | fuel + 1 => do
    skipSpace
    match commentLength (← upcoming) with
    | some length => return (← token Tree.commentKind true length) :: (← commentsWithin fuel)
    | none => return []

/-- The comments before the next token. -/
def comments : Rule := do commentsWithin (← upcoming).length

namespace Rule

/-- A punctuation. -/
def mark (s : String) : Rule := do
  require (s.toList.isPrefixOf (← upcoming))
  return [← token s false s.length]

/-- A keyword. -/
def word (s : String) : Rule := do
  require (wordAt (← upcoming) = s.toList)
  return [← token s false s.length]

/-- Any word, as a construct of a kind. -/
def name (kind : String) : Rule := do
  let length := wordLength (← upcoming)
  require (0 < length)
  return [← token kind true length]

/-- The first of two rules that succeeds. -/
def either (first second : Rule) : Rule := first <|> second

/-- The first rule of a list that succeeds. -/
def firstOf : List Rule → Rule
  | [] => failure
  | rule :: rest => rule <|> firstOf rest

/-- A rule that may be left out. -/
def opt (rule : Rule) : Rule := rule <|> pure []

/-- Rules one after the other, the first part of the construct being read already. -/
def andThen : List Rule → Rule
  | [] => pure []
  | rule :: rest => do
    let before ← get
    let between ← comments
    let children ← rule
    if children.isEmpty then
      set before
      andThen rest
    else return between ++ children ++ (← andThen rest)

/-- Rules one after the other with comments between them. A part that adds no child takes up
nothing. -/
def seq : List Rule → Rule
  | [] => pure []
  | rule :: rest => do
    let children ← rule
    if children.isEmpty then seq rest else return children ++ (← andThen rest)

/-- A rule repeated as often as it succeeds and at most `fuel` times, after a first part. -/
def manyWithin (rule : Rule) : Nat → Rule
  | 0 => pure []
  | fuel + 1 => do
    let before ← get
    let between ← comments
    let children ← opt rule
    if children.isEmpty then
      set before
      return []
    else return between ++ children ++ (← manyWithin rule fuel)

/-- A rule repeated as often as it succeeds. -/
def many (rule : Rule) : Rule := do
  let fuel := (← upcoming).length
  let first ← opt rule
  if first.isEmpty then return [] else return first ++ (← manyWithin rule fuel)

/-- Items with a separator between them. -/
def sepBy1 (separator item : Rule) : Rule := seq [item, many (seq [separator, item])]

/-- Items between commas, where an item may be missing. -/
def commaList (item : Rule) : Rule := seq [opt item, many (seq [mark ",", opt item])]

/-- A construct made of the children of a rule. -/
def tree (kind : String) (rule : Rule) : Reader Tree := do
  match ← rule with
  | [] => failure
  | first :: rest =>
    let last := rest.getLast?.getD first
    return .node kind true false none first.start last.stop (first :: rest)

/-- A construct made of the children of a rule, as a rule. -/
def node (kind : String) (rule : Rule) : Rule := do return [← tree kind rule]

/-- A construct as a rule. -/
def one (reader : Reader Tree) : Rule := do return [← reader]

/-- The children of a rule in a part of the construct being read. -/
def field (name : String) (rule : Rule) : Rule := do
  return (← rule).map fun child => if child.isComment then child else child.withField name

/-- The end of a statement: the comments up to the place where a semicolon is put in, or up to a
written one. It begins right after the last token. -/
def semicolonWithin (inExpression beforeBody : Bool) : Nat → Rule
  | 0 => failure
  | fuel + 1 => do
    if endsStatement inExpression beforeBody (← upcoming) then return []
    skipSpace
    match commentLength (← upcoming) with
    | some length =>
      return (← token Tree.commentKind true length) ::
        (← semicolonWithin inExpression beforeBody fuel)
    | none => mark ";"

/-- The end of a statement, after an expression or after something else. -/
def semicolon (inExpression : Bool) : Rule := do
  semicolonWithin inExpression false ((← upcoming).length + 1)

/-- The end of a declaration of a function, before which a brace on a new line is no statement. -/
def bodilessEnd : Rule := do semicolonWithin false true ((← upcoming).length + 1)

/-- Comments after a closing brace up to the place where a semicolon could be put in. -/
def closingWithin (inExpression : Bool) : Nat → Rule
  | 0 => failure
  | fuel + 1 => do
    if endsStatement inExpression false (← upcoming) then return []
    skipSpace
    match commentLength (← upcoming) with
    | some length =>
      return (← token Tree.commentKind true length) :: (← closingWithin inExpression fuel)
    | none => failure

/-- A closing brace with the comments that stand behind it in its line. -/
def closing (inExpression : Bool) : Rule := do
  let brace ← mark "\x7d"
  let fuel := (← upcoming).length + 1
  return brace ++ (← opt (closingWithin inExpression fuel))

/-- A rule that is followed by the end of a statement. -/
def ended (inExpression : Bool) (rule : Rule) : Rule := do
  let children ← rule
  return children ++ (← semicolon inExpression)

/-- A rule that succeeds only where a test on the characters after it holds. -/
def followedBy (test : List Char → Bool) (rule : Rule) : Rule := do
  let children ← rule
  require (test (← upcoming))
  return children

/-- What comes after blanks and comments, with the cursor left where it is. -/
def lookPast : Reader (List Char) := do
  let before ← get
  let _ ← comments
  let next ← upcoming
  set before
  return next

end Rule

end ElementWrapper.Source
