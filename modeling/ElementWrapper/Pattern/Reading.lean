import ElementWrapper.Pattern.Basic
import ElementWrapper.Text.Identifier
import ElementWrapper.Text.LowerCase

/-!
Reading of patterns from their usual spelling: classes in brackets, repetition by `*`, `+`, `?` and
braces, groups in parentheses, and letters after a backslash. `Regex.read` gives the pattern, or the
`Regex.Fault` that makes the spelling useless. A code point cannot be written by its name after
`\N`, since the names are not known here; such a spelling is malformed.

A part of a pattern is read together with its width, the least and the greatest number of code
points that it matches, because a look back needs a part of one width. Some parts are spelled well
and have no meaning nevertheless; that is noticed only when the whole pattern has been read.
-/

namespace ElementWrapper

/-- A pattern that was read, with the number of its groups and their names. -/
structure Regex where
  pattern : Pattern
  groups : Nat
  names : List (Text × Nat)

namespace Regex

/-- Why a spelling is no pattern. -/
inductive Fault where
  /-- It breaks the rules of spelling. -/
  | malformed
  /-- A part is to be repeated too often. -/
  | tooLarge
  /-- The number of times that a part is to be repeated has too many digits to be read. -/
  | tooLong
  /-- Classes are asked to be those of ASCII and those of Unicode. -/
  | mixedAlphabets
  deriving DecidableEq

/-- What letters mean in a pattern. The last two are set for whole patterns only: `unicode` asks for
what holds unless `ascii` is set, and with `template` nothing may be repeated. -/
structure Flags where
  ignoreCase : Bool := false
  multiline : Bool := false
  dotAll : Bool := false
  verbose : Bool := false
  ascii : Bool := false
  unicode : Bool := false
  template : Bool := false

/-- How a part may be used by what follows it. -/
inductive Kind where
  | item
  | edge
  | repeated
  deriving DecidableEq

/-- A part of a pattern with its width. -/
structure Piece where
  pattern : Pattern
  least : Nat
  most : Option Nat
  kind : Kind := .item

/-- The state of reading. Groups that are closed have a width. -/
structure Progress where
  rest : Text
  flags : Flags := {}
  groups : Nat := 1
  names : List (Text × Nat) := []
  widths : List (Nat × (Nat × Option Nat)) := []
  /-- The first group that the current look back cannot refer to. -/
  behindFrom : Option Nat := none
  /-- The groups that conditions refer to. -/
  conditions : List Nat := []
  /-- Whether a part is repeated. -/
  repeats : Bool := false
  /-- Whether a look back has no width. -/
  boundless : Bool := false

/-- A reader goes through the text of a pattern or fails. -/
abbrev Scan := StateT Progress (Except Fault)

/-- The pattern breaks the rules. -/
def malformed {α : Type} : Scan α := throw .malformed

/-! ## Tokens -/

/-- The first token of a text, which is one code point or two if the first is a backslash. -/
def firstToken (text : Text) : Text :=
  match text with
  | [] => []
  | c :: rest => if c = .scalar '\\' then c :: rest.take 1 else [c]

/-- The next token, if there is one. -/
def peek : Scan Text := do return firstToken (← get).rest

/-- A number of code points is taken. A backslash that ends the pattern is malformed as soon as it
is the next token. -/
def advance (count : Nat) : Scan Unit := do
  modify fun p => { p with rest := p.rest.drop count }
  if (← get).rest = ("\\" : Text) then malformed

/-- The next token is taken. -/
def take : Scan Text := do
  let token ← peek
  advance token.length
  return token

/-- The next token is taken if it is a given one. -/
def accept (token : Text) : Scan Bool := do
  if token.isPrefixOf (← get).rest && (← peek) = token then
    let _ ← take
    return true
  else return false

/-- The next token must be a given one. -/
def expect (token : Text) : Scan Unit := do
  if !(← accept token) then malformed

/-- The code points of a class at the beginning of what is left, at most `count` of them. -/
def takeUpTo (count : Nat) (test : CodePoint → Bool) : Scan Text := do
  let found := (((← get).rest.take count).takeWhile test)
  advance found.length
  return found

/-- What stands before a closing token, which is taken too; it must not be empty. -/
def takeUntil (closing : CodePoint) : Scan Text := do
  let rest := (← get).rest
  let found := rest.takeWhile (· ≠ closing)
  if found.isEmpty || found.length = rest.length then malformed
  advance (found.length + 1)
  return found

/-- A digit of ASCII. -/
def isDigit (c : CodePoint) : Bool := c.all Char.isDigit

/-- A digit of base eight. -/
def isOctal (c : CodePoint) : Bool := c.all fun c => '0' ≤ c && c ≤ '7'

/-- A digit of base sixteen. -/
def isHex (c : CodePoint) : Bool :=
  c.all fun c => c.isDigit || ('a' ≤ c && c ≤ 'f') || ('A' ≤ c && c ≤ 'F')

/-- The value of digits in a base. -/
def value (base : Nat) (digits : Text) : Nat :=
  digits.foldl (fun n c => n * base + (Text.hexDigit? c).getD 0) 0

/-- The character that a letter stands for after a backslash. -/
def control? : CodePoint → Option Nat
  | .scalar 'a' => some 7
  | .scalar 'b' => some 8
  | .scalar 'f' => some 12
  | .scalar 'n' => some 10
  | .scalar 'r' => some 13
  | .scalar 't' => some 9
  | .scalar 'v' => some 11
  | .scalar '\\' => some 92
  | _ => none

/-! ## Classes -/

/-- The classes that letters name after a backslash; a capital letter names what is not in it. -/
def namedClass? (flags : Flags) (letter : CodePoint) : Option (CodePoint → Bool) :=
  let within (test : CodePoint → Bool) (c : CodePoint) : Bool :=
    test c && (!flags.ascii || c.toNat < 0x80)
  let digit := within fun c => (Text.decimalDigit? c).isSome
  let space := within fun c => Text.isBlank c && !(flags.ascii && 0x1C ≤ c.toNat && c.toNat ≤ 0x1F)
  let word := within fun c => c = .scalar '_' || Text.isAlphanumeric c
  match letter with
  | .scalar 'd' => some digit
  | .scalar 'D' => some (!digit ·)
  | .scalar 's' => some space
  | .scalar 'S' => some (!space ·)
  | .scalar 'w' => some word
  | .scalar 'W' => some (!word ·)
  | _ => none

/-- The numbers that stand for the same letter under some flags. -/
def forms (flags : Flags) (n : Nat) : List Nat :=
  if !flags.ignoreCase then [n]
  else if flags.ascii then
    if 0x41 ≤ n && n ≤ 0x5A then [n, n + 32]
    else if 0x61 ≤ n && n ≤ 0x7A then [n, n - 32]
    else [n]
  else n :: Text.letterForms n

/-- The class of the numbers in a range. -/
def rangeClass (flags : Flags) (low high : Nat) (c : CodePoint) : Bool :=
  (forms flags c.toNat).any fun n => low ≤ n && n ≤ high

/-- One code point of a class, as a piece. -/
def single (test : CodePoint → Bool) : Piece := ⟨.one test, 1, some 1, .item⟩

/-- A condition on a place, as a piece. -/
def edge (test : Text → Text → Bool) : Piece := ⟨.edge test, 0, some 0, .edge⟩

/-! ## Edges -/

/-- Whether the two sides of a place belong to different kinds, letters being one kind. -/
def isBoundary (word : CodePoint → Bool) (before rest : Text) : Bool :=
  before.head?.any word != rest.head?.any word

/-- The edge that a letter names after a backslash. -/
def namedEdge? (flags : Flags) (letter : CodePoint) : Option (Text → Text → Bool) :=
  let word := (namedClass? flags (.scalar 'w')).getD fun _ => false
  match letter with
  | .scalar 'A' => some fun before _ => before.isEmpty
  | .scalar 'Z' => some fun _ rest => rest.isEmpty
  | .scalar 'b' => some fun before rest => isBoundary word before rest
  | .scalar 'B' => some fun before rest =>
    !(before.isEmpty && rest.isEmpty) && !isBoundary word before rest
  | _ => none

/-- The beginning of the text, or of a line. -/
def opening (flags : Flags) (before _rest : Text) : Bool :=
  match before with
  | [] => true
  | c :: _ => flags.multiline && c = .scalar '\n'

/-- The end of the text, the place before a line feed at its end, or the end of a line. -/
def ending (flags : Flags) (_before rest : Text) : Bool :=
  match rest with
  | [] => true
  | c :: more => c = .scalar '\n' && (flags.multiline || more.isEmpty)

/-! ## Escapes -/

/-- The code point with a number of hexadecimal digits after a letter. -/
def hexEscape (count : Nat) : Scan Nat := do
  let digits ← takeUpTo count isHex
  let n := value 16 digits
  if digits.length ≠ count || 0x10FFFF < n then malformed
  return n

/-- The code point that a letter, a digit or a mark stands for after a backslash. -/
def characterEscape (c : CodePoint) : Scan Nat := do
  match c with
  | .scalar 'x' => hexEscape 2
  | .scalar 'u' => hexEscape 4
  | .scalar 'U' => hexEscape 8
  | c =>
    if c.all Char.isAlpha || isDigit c then malformed
    return c.toNat

/-- Whether a group may be referred to here. -/
def checkGroup (index : Nat) : Scan Unit := do
  let p ← get
  if (p.widths.lookup index).isNone then malformed
  match p.behindFrom with
  | some first => if first ≤ index then malformed
  | none => return

/-- The text of a group once more. -/
def reference (index : Nat) : Scan Piece := do
  checkGroup index
  let p ← get
  let width := (p.widths.lookup index).getD (0, some 0)
  let flags := p.flags
  let same (a b : CodePoint) : Bool := (forms flags a.toNat).contains b.toNat
  return ⟨.again index same, width.1, width.2, .item⟩

/-- A literal code point. -/
def literal (n : Nat) : Scan Piece := do
  let flags := (← get).flags
  return single (rangeClass flags n n)

/-- What a token of a backslash and a code point stands for. -/
def escape (c : CodePoint) : Scan Piece := do
  let flags := (← get).flags
  match namedEdge? flags c, namedClass? flags c, control? c with
  | some test, _, _ => return edge test
  | _, some test, _ => return single test
  | _, _, some n => literal n
  | _, _, _ =>
    if c = .scalar '0' then
      literal (value 8 (← takeUpTo 2 isOctal))
    else if isDigit c then
      let second ← takeUpTo 1 isDigit
      let third ← if isOctal c && second.length = 1 && second.all isOctal
        then takeUpTo 1 isOctal else pure []
      if third.isEmpty then reference (value 10 (c :: second))
      else
        let n := value 8 (c :: second ++ third)
        if 0o377 < n then malformed
        literal n
    else literal (← characterEscape c)

/-! ## Classes in brackets -/

/-- A member of a class in brackets: a code point or a class that a letter names. -/
inductive Member where
  | number (n : Nat)
  | class (test : CodePoint → Bool)

/-- What a token of a backslash and a code point stands for in brackets. -/
def memberEscape (c : CodePoint) : Scan Member := do
  let flags := (← get).flags
  match control? c, namedClass? flags c with
  | some n, _ => return .number n
  | _, some test => return .class test
  | _, _ =>
    if isOctal c then
      let n := value 8 (c :: (← takeUpTo 2 isOctal))
      if 0o377 < n then malformed
      return .number n
    else return .number (← characterEscape c)

/-- What a token stands for in brackets. -/
def member (token : Text) : Scan Member :=
  match token with
  | [c] => return .number c.toNat
  | [_, c] => memberEscape c
  | _ => malformed

/-- The class of a member. -/
def Member.test (flags : Flags) : Member → CodePoint → Bool
  | number n => rangeClass flags n n
  | .class test => test

/-- The members up to the closing bracket. A bracket that stands first is a member. -/
def membersWithin : Nat → (first : Bool) → Scan (List (CodePoint → Bool))
  | 0, _ => malformed
  | fuel + 1, first => do
    let flags := (← get).flags
    let token ← take
    if token.isEmpty then malformed
    if token = ("]" : Text) && !first then return []
    let low ← member token
    if !(← accept "-") then return low.test flags :: (← membersWithin fuel false)
    let token ← take
    if token.isEmpty then malformed
    if token = ("]" : Text) then return [low.test flags, rangeClass flags 45 45]
    match low, ← member token with
    | .number low, .number high =>
      if high < low then malformed
      return rangeClass flags low high :: (← membersWithin fuel false)
    | _, _ => malformed

/-- A class in brackets, after its opening. -/
def bracketed : Scan Piece := do
  let negated ← accept "^"
  let members ← membersWithin ((← get).rest.length + 1) true
  return single fun c => members.any (· c) != negated

/-! ## Repetition -/

/-- The number of repetitions from which on a pattern is refused; also the greatest width of a look
back. -/
def tooMany : Nat := 4294967295

/-- The greatest number of digits of a number that is read. -/
def mostDigits : Nat := 4300

/-- A number of repetitions. -/
def count (digits : Text) : Scan Nat := do
  if mostDigits < digits.length then throw .tooLong
  let n := value 10 digits
  if tooMany ≤ n then throw .tooLarge
  return n

/-- How often a piece is repeated, if a token says so. A brace that says nothing stands for
itself. -/
def repetition? (token : Text) : Scan (Option (Nat × Option Nat)) := do
  if token = ("?" : Text) then return some (0, some 1)
  else if token = ("*" : Text) then return some (0, none)
  else if token = ("+" : Text) then return some (1, none)
  else
    let before ← get
    if (← peek) = ("\x7d" : Text) then return none
    let low ← takeUpTo before.rest.length isDigit
    let high ← if ← accept "," then takeUpTo before.rest.length isDigit else pure low
    if !(← accept "\x7d") then
      set before
      return none
    let least ← count low
    if high.isEmpty then return some (least, none)
    let most ← count high
    if most < least then malformed
    return some (least, some most)

/-- A piece repeated; a mark may follow that asks for few repetitions, or for no second thoughts,
neither about their number nor within one of them. -/
def repeated (piece : Piece) (least : Nat) (most : Option Nat) : Scan Piece := do
  if piece.kind ≠ .item then malformed
  modify fun p => { p with repeats := true }
  let lazily ← accept "?"
  let alone ← if lazily then pure false else accept "+"
  let body := if alone then .atomic piece.pattern else piece.pattern
  let pattern := .many least most (!lazily) body
  let width : Option Nat := match piece.most, most with
    | some 0, _ | _, some 0 => some 0
    | some n, some m => some (n * m)
    | _, _ => none
  return ⟨if alone then .atomic pattern else pattern, piece.least * least, width, .repeated⟩

/-! ## Sequences and groups -/

/-- What the reader of groups reads inside of them. -/
inductive Goal where
  | branches
  | branch

/-- Pieces one after the other. -/
def Piece.sequence (pieces : List Piece) : Piece :=
  pieces.foldr (fun piece rest =>
    ⟨.seq piece.pattern rest.pattern, piece.least + rest.least,
      do return (← piece.most) + (← rest.most), .item⟩) ⟨.empty, 0, some 0, .item⟩

/-- One of two pieces. -/
def Piece.either (first second : Piece) : Piece :=
  ⟨.alt first.pattern second.pattern, min first.least second.least,
    do return max (← first.most) (← second.most), .item⟩

/-- A flag set or cleared by a letter, in a group or for the whole pattern. Of the two alphabets the
whole pattern may be given both, while a group changes to the one that it is given. -/
def setFlag (whole on : Bool) (flags : Flags) : CodePoint → Option Flags
  | .scalar 'i' => some { flags with ignoreCase := on }
  | .scalar 'm' => some { flags with multiline := on }
  | .scalar 's' => some { flags with dotAll := on }
  | .scalar 'x' => some { flags with verbose := on }
  | .scalar 't' => if whole then some { flags with template := on } else none
  | .scalar 'a' => if on then some { flags with ascii := true } else none
  | .scalar 'u' =>
    if whole then some { flags with unicode := on }
    else if on then some { flags with ascii := false }
    else none
  | _ => none

/-- Several flags set or cleared by letters. -/
def setFlags (whole on : Bool) (letters : Text) (flags : Flags) : Option Flags :=
  letters.foldlM (setFlag whole on) flags

/-- The letters of flags to set and to clear, and whether a colon follows them. -/
def flagLetters (first : Text) : Scan (Text × Text × Bool) := do
  let isLetter (c : CodePoint) : Bool := c.all Char.isAlpha
  let length := (← get).rest.length
  let on ← if first = ("-" : Text) then pure [] else (first ++ ·) <$> takeUpTo length isLetter
  let clears ← if first = ("-" : Text) then pure true else accept "-"
  let off ← if clears then takeUpTo length isLetter else pure []
  if clears && off.isEmpty then malformed
  if ← accept ":" then return (on, off, true)
  if clears then malformed
  expect ")"
  return (on, off, false)

section

variable (run : Goal → Scan Piece)

/-- The rest of a group whose opening is read. -/
def closed (goal : Goal) : Scan Piece := do
  let piece ← run goal
  expect ")"
  return piece

/-- A group whose text is kept. -/
def kept (name : Option Text) : Scan Piece := do
  let index := (← get).groups
  match name with
  | some name =>
    if ((← get).names.lookup name).isSome then malformed
    modify fun p => { p with names := (name, index) :: p.names }
  | none => pure ()
  modify fun p => { p with groups := index + 1 }
  let piece ← closed run .branches
  modify fun p => { p with widths := (index, (piece.least, piece.most)) :: p.widths }
  return { piece with pattern := .group index piece.pattern, kind := .item }

/-- A group that begins with a name. -/
def named : Scan Piece := do
  if ← accept "<" then
    let name ← takeUntil '>'
    if !Text.isIdentifier name then malformed
    kept run (some name)
  else if ← accept "=" then
    let name ← takeUntil ')'
    if !Text.isIdentifier name then malformed
    match (← get).names.lookup name with
    | some index => reference index
    | none => malformed
  else malformed

/-- A condition on what follows or, if `back`, on what comes before. -/
def look (back negated : Bool) : Scan Piece := do
  let outer := (← get).behindFrom
  if back then modify fun p => { p with behindFrom := outer.or (some p.groups) }
  let piece ← closed run .branches
  modify fun p => { p with behindFrom := outer }
  if !back then return ⟨.ahead negated piece.pattern, 0, some 0, .item⟩
  if piece.most ≠ some piece.least || tooMany < piece.least then
    modify fun p => { p with boundless := true }
  return ⟨.behind negated piece.least piece.pattern, 0, some 0, .item⟩

/-- The number from which on no group can have it. -/
def mostGroups : Nat := 1073741823

/-- Two parts of which a group decides. -/
def conditional : Scan Piece := do
  let name ← takeUntil ')'
  let index ← if Text.isIdentifier name then
      match (← get).names.lookup name with
      | some index => pure index
      | none => malformed
    else match Text.readDecimal name with
      | some (.ofNat index) => pure index
      | _ => malformed
  if index = 0 || mostGroups ≤ index then malformed
  modify fun p => { p with conditions := index :: p.conditions }
  if (← get).behindFrom.isSome then checkGroup index
  let yes ← run .branch
  let no ← if ← accept "|" then run .branch else pure (Piece.sequence [])
  expect ")"
  return { yes.either no with pattern := .choice index yes.pattern no.pattern }

/-- A group with flags of its own, or flags for the whole pattern, which must stand at its
beginning. -/
def flagged (atStart : Bool) (first : Text) : Scan (Option Piece) := do
  let (on, off, inner) ← flagLetters first
  if on.any off.contains then malformed
  if on.any (· = .scalar 'a') && on.any (· = .scalar 'u') then malformed
  let before := (← get).flags
  match (setFlags (!inner) true on before).bind (setFlags (!inner) false off) with
  | none => malformed
  | some flags =>
    modify fun p => { p with flags }
    if inner then
      let piece ← closed run .branches
      modify fun p => { p with flags := before }
      return some piece
    else
      if !atStart then malformed
      return none

/-- The tokens of a comment up to a closing one, which is taken too; only a comment that is a group
must have one. -/
def skipComment (closing : Text) (isGroup : Bool) : Nat → Scan Unit
  | 0 => malformed
  | fuel + 1 => do
    let token ← take
    if token.isEmpty then
      if isGroup then malformed
    else if token ≠ closing then skipComment closing isGroup fuel

/-- A group after its opening; a comment is no piece. -/
def group (atStart : Bool) : Scan (Option Piece) := do
  if !(← accept "?") then return some (← kept run none)
  let token ← take
  match token with
  | [.scalar 'P'] => return some (← named run)
  | [.scalar ':'] => return some (← closed run .branches)
  | [.scalar '#'] => do
    skipComment ")" true ((← get).rest.length + 1)
    return none
  | [.scalar '='] => return some (← look run false false)
  | [.scalar '!'] => return some (← look run false true)
  | [.scalar '<'] =>
    if ← accept "=" then return some (← look run true false)
    else if ← accept "!" then return some (← look run true true)
    else malformed
  | [.scalar '('] => return some (← conditional run)
  | [.scalar '>'] => do
    let piece ← closed run .branches
    return some { piece with pattern := .atomic piece.pattern, kind := .item }
  | _ => flagged run atStart token

/-- The pieces up to the end of a branch, given those that are read, last first. -/
def piecesWithin : Nat → (atStart : Bool) → List Piece → Scan (List Piece)
  | 0, _, _ => malformed
  | fuel + 1, atStart, pieces => do
    let token ← peek
    let flags := (← get).flags
    let proceed (piece : Piece) := piecesWithin fuel atStart (piece :: pieces)
    if token = [] || token = ("|" : Text) || token = (")" : Text) then return pieces.reverse
    let _ ← take
    match token with
    | [.scalar '['] => do proceed (← bracketed)
    | [.scalar '.'] => proceed (single fun c => flags.dotAll || c ≠ .scalar '\n')
    | [.scalar '^'] => proceed (edge (opening flags))
    | [.scalar '$'] => proceed (edge (ending flags))
    | [.scalar '('] => do
      match ← group run (atStart && pieces.isEmpty) with
      | some piece => proceed { piece with kind := .item }
      | none => piecesWithin fuel atStart pieces
    | [c] =>
      if flags.verbose && [0x20, 9, 10, 11, 12, 13].contains c.toNat then
        piecesWithin fuel atStart pieces
      else if flags.verbose && c = .scalar '#' then
        skipComment "\n" false ((← get).rest.length + 1)
        piecesWithin fuel atStart pieces
      else if [.scalar '*', .scalar '+', .scalar '?', .scalar '\x7b'].contains c then
        match ← repetition? token, pieces with
        | none, _ => do proceed (← literal c.toNat)
        | some _, [] => malformed
        | some (least, most), piece :: before => do
          piecesWithin fuel atStart ((← repeated piece least most) :: before)
      else do proceed (← literal c.toNat)
    | [_, c] => do proceed (← escape c)
    | _ => malformed

/-- The pieces of a branch. -/
def branch (atStart : Bool) : Scan Piece := do
  return Piece.sequence (← piecesWithin run ((← get).rest.length + 1) atStart [])

/-- The branches that follow a first one. -/
def branchesWithin : Nat → Piece → Scan Piece
  | 0, piece => pure piece
  | fuel + 1, piece => do
    if ← accept "|" then
      let next ← branch run false
      return piece.either (← branchesWithin fuel next)
    else return piece

/-- Branches between bars. -/
def branches (atStart : Bool) : Scan Piece := do
  let first ← branch run atStart
  branchesWithin run (← get).rest.length first

end

/-- What is inside of a group, within a bound on the depth of groups. -/
def inside : Nat → Goal → Scan Piece
  | 0, _ => malformed
  | depth + 1, .branches => branches (inside depth) false
  | depth + 1, .branch => branch (inside depth) false

/-- The pattern with a spelling. -/
def read (text : Text) : Except Fault Regex := do
  let (piece, p) ← (advance 0 *> branches (inside text.length) true).run { rest := text }
  if p.flags.ascii && p.flags.unicode then throw .mixedAlphabets
  if !p.rest.isEmpty then throw .malformed
  if p.conditions.any (p.groups ≤ ·) then throw .malformed
  if p.boundless || (p.flags.template && p.repeats) then throw .malformed
  return ⟨piece.pattern, p.groups - 1, p.names⟩

end Regex

end ElementWrapper
