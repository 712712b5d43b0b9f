import ElementWrapper.Text.Digits
import ElementWrapper.Text.Utf8

/-!
Tokens of a data file in YAML 1.1. Outside of brackets the structure is given by indentation: the
scanner keeps the column of every open block and puts in a token where a block begins or ends.

A key of a mapping is known as one only when the colon after it is met. So the scanner remembers
where a key may have begun, one place for each depth of brackets, and puts the token for the key in
there afterwards. Such a place is given up at the end of its line.

`Token.scan` yields the tokens up to the first fault, and the fault.
-/

namespace ElementWrapper.Yaml

/-- Why a data file gives no value. -/
inductive Fault where
  /-- It breaks the rules of the format. -/
  | malformed
  /-- A number or a date in it has no value. -/
  | value
  /-- The number of a character in it is too large for a machine word. -/
  | overflow
  deriving DecidableEq, Repr

/-- A token of a data file. -/
inductive Token where
  | documentStart
  | documentEnd
  /-- The line that names the version of the format. -/
  | version (major : Nat)
  /-- The line that says what a handle of tags stands for. -/
  | handle (name address : Text)
  | directive
  | blockSequence
  | blockMapping
  | blockEnd
  | flowSequence
  | flowMapping
  | flowSequenceEnd
  | flowMappingEnd
  /-- The dash before an entry of a block. -/
  | dash
  /-- The comma between entries in brackets. -/
  | comma
  | key
  | value
  | alias (name : Text)
  | anchor (name : Text)
  | tag (handle : Option Text) (suffix : Text)
  /-- A text, which is `plain` if it is written without quotes and marks. -/
  | scalar (text : Text) (plain : Bool)
  deriving DecidableEq, Repr

/-- A place where a key may have begun. -/
structure Candidate where
  /-- The number of tokens before the key. -/
  number : Nat
  /-- Nothing but a key can stand there. -/
  required : Bool
  index : Nat
  line : Nat
  column : Nat

/-- The state of the scanner. -/
structure Scanner where
  rest : List Char
  index : Nat := 0
  line : Nat := 0
  column : Nat := 0
  tokens : Array Token := #[]
  /-- The number of open brackets. -/
  depth : Nat := 0
  /-- The column of the innermost open block. -/
  indent : Int := -1
  /-- The columns of the blocks around it. -/
  outer : List Int := []
  /-- Whether a key may begin at the next token. -/
  allowKey : Bool := true
  /-- The places where keys may have begun, by depth. -/
  candidates : List (Nat × Candidate) := []

/-- A step of scanning, with the state kept when it fails. -/
abbrev Scan := ExceptT Fault (StateM Scanner)

namespace Scan

/-! ## Characters -/

/-- A character that ends a line. -/
def isBreak (c : Char) : Bool := ['\n', '\r', '\x85', '\u2028', '\u2029'].contains c

/-- A place at the end of a line or of the text. -/
def atBreak : List Char → Bool
  | [] => true
  | c :: _ => isBreak c

/-- A place at a blank, at the end of a line or of the text. -/
def atSpace (rest : List Char) : Bool := atBreak rest || rest.head? = some ' '

/-- A place where a token of one mark can end. -/
def atGap (rest : List Char) : Bool := atSpace rest || rest.head? = some '\t'

/-- A character of the name of an anchor. -/
def isNameChar (c : Char) : Bool := c.isAlphanum || c = '-' || c = '_'

/-- A character of the address of a tag. -/
def isAddressChar (c : Char) : Bool :=
  c.isAlphanum || "-;/?:@&=+$,_.!~*'()[]%".toList.contains c

/-- A digit of base sixteen. -/
def isHex (c : Char) : Bool := c.isDigit || ('a' ≤ c && c ≤ 'f') || ('A' ≤ c && c ≤ 'F')

/-- The value of digits in base sixteen. -/
def hexValue (digits : List Char) : Nat :=
  digits.foldl (fun n c => n * 16 + (Text.hexDigit? (.scalar c)).getD 0) 0

/-- A mark between documents at the beginning of a line. -/
def atDocumentMark (rest : List Char) : Bool :=
  (rest.take 3 = "---".toList || rest.take 3 = "...".toList) && atGap (rest.drop 3)

/-! ## Moving -/

/-- The file breaks the rules. -/
def malformed {α : Type} : Scan α := throw .malformed

/-- The characters that are left. -/
def upcoming : Scan (List Char) := do return (← get).rest

/-- The next character. -/
def peek : Scan (Option Char) := do return (← get).rest.head?

/-- The state after one more character. -/
def next (s : Scanner) : Scanner :=
  match s.rest with
  | [] => s
  | c :: rest =>
    if isBreak c && !(c = '\r' && rest.head? = some '\n') then
      { s with rest, index := s.index + 1, line := s.line + 1, column := 0 }
    else if c = '\uFEFF' then { s with rest, index := s.index + 1 }
    else { s with rest, index := s.index + 1, column := s.column + 1 }

/-- The state after a number of characters. -/
def nextBy : Nat → Scanner → Scanner
  | 0, s => s
  | n + 1, s => nextBy n (next s)

/-- A number of characters are passed. -/
def skip (n : Nat) : Scan Unit := modify (nextBy n)

/-- The characters of a class that stand next are taken. -/
def takeWhile (test : Char → Bool) : Scan (List Char) := do
  let found := (← upcoming).takeWhile test
  skip found.length
  return found

/-- The blanks that stand next are passed. -/
def skipBlanks : Scan Unit := do
  let _ ← takeWhile (· = ' ')

/-- A comment that stands next is passed. -/
def skipComment : Scan Unit := do
  if (← peek) = some '#' then
    let _ ← takeWhile (!isBreak ·)

/-- The end of a line that stands next is taken; a carriage return and a line feed end one line. -/
def takeBreak : Scan (List Char) := do
  match ← upcoming with
  | '\r' :: '\n' :: _ => skip 2; return ['\n']
  | c :: _ =>
    if !isBreak c then return []
    skip 1
    return [if c = '\u2028' || c = '\u2029' then c else '\n']
  | [] => return []

/-- A token is added. -/
def emit (token : Token) : Scan Unit := modify fun s => { s with tokens := s.tokens.push token }

/-! ## Blocks and keys -/

/-- The blocks that lie further right than a column end. -/
def unwindWithin (column : Int) : List Int → Scan Unit
  | [] => return
  | outer :: more => do
    if column < (← get).indent then
      modify fun s => { s with indent := outer, outer := more }
      emit .blockEnd
      unwindWithin column more

/-- The blocks that lie further right than a column end, unless brackets are open. -/
def unwind (column : Int) : Scan Unit := do
  let s ← get
  if s.depth = 0 then unwindWithin column s.outer

/-- A block begins at a column if no open block lies there. -/
def addIndent (column : Nat) : Scan Bool := do
  let s ← get
  if s.indent < column then
    set { s with indent := column, outer := s.indent :: s.outer }
    return true
  else return false

/-- The place at the current depth is given up; it is a fault if a key had to stand there. -/
def dropCandidate : Scan Unit := do
  let s ← get
  match s.candidates.lookup s.depth with
  | some candidate => if candidate.required then malformed
  | none => pure ()
  set { s with candidates := s.candidates.filter (·.1 ≠ s.depth) }

/-- The number of characters that a key may have. -/
def keyLength : Nat := 1024

/-- The places that lie too far back are given up. -/
def dropStale : Scan Unit := do
  let s ← get
  let stale (candidate : Candidate) : Bool :=
    candidate.line ≠ s.line || keyLength < s.index - candidate.index
  if s.candidates.any fun (_, candidate) => stale candidate && candidate.required then malformed
  set { s with candidates := s.candidates.filter fun (_, candidate) => !stale candidate }

/-- A key may begin at the next token. -/
def saveCandidate : Scan Unit := do
  if (← get).allowKey then
    dropCandidate
    modify fun s =>
      { s with candidates := (s.depth, { number := s.tokens.size,
                                         required := s.depth = 0 && s.indent = (s.column : Int),
                                         index := s.index, line := s.line,
                                         column := s.column }) :: s.candidates }

/-- Whether a key may begin at the next token is set. -/
def setAllowKey (allow : Bool) : Scan Unit := modify fun s => { s with allowKey := allow }

/-- A token is put in before the one with a number. -/
def insert (number : Nat) (token : Token) : Scan Unit :=
  modify fun s => { s with tokens := s.tokens.insertIdxIfInBounds number token }

/-! ## Gaps between tokens -/

/-- Blanks, comments and ends of lines are passed, at most `fuel` lines of them. -/
def skipGapWithin : Nat → Scan Unit
  | 0 => return
  | fuel + 1 => do
    skipBlanks
    skipComment
    if !(← takeBreak).isEmpty then
      if (← get).depth = 0 then setAllowKey true
      skipGapWithin fuel

/-- Blanks, comments and ends of lines are passed, and a byte order mark at the very beginning. -/
def skipGap : Scan Unit := do
  if (← get).index = 0 && (← peek) = some '\uFEFF' then skip 1
  skipGapWithin ((← upcoming).length + 1)

/-! ## Directives, anchors and tags -/

/-- The end of a line after blanks and a comment. -/
def endLine : Scan Unit := do
  skipBlanks
  skipComment
  if !atBreak (← upcoming) then malformed
  let _ ← takeBreak

/-- A name of letters, digits, dashes and underscores. -/
def name : Scan (List Char) := do
  let found ← takeWhile isNameChar
  if found.isEmpty then malformed
  return found

/-- The value of decimal digits. -/
def number : Scan Nat := do
  let digits ← takeWhile Char.isDigit
  if digits.isEmpty then malformed
  return digits.foldl (fun n c => n * 10 + (c.toNat - 48)) 0

/-- The bytes that are written as percent signs with two digits. -/
def escapedBytesWithin : Nat → Scan (List UInt8)
  | 0 => return []
  | fuel + 1 => do
    match ← upcoming with
    | '%' :: a :: b :: _ =>
      if !(isHex a && isHex b) then malformed
      skip 3
      return UInt8.ofNat (hexValue [a, b]) :: (← escapedBytesWithin fuel)
    | '%' :: _ => malformed
    | _ => return []

/-- The pieces of an address, at most `fuel` of them. -/
def addressWithin : Nat → Scan (List Char)
  | 0 => return []
  | fuel + 1 => do
    let plain ← takeWhile fun c => isAddressChar c && c ≠ '%'
    if (← peek) ≠ some '%' then return plain
    let bytes ← escapedBytesWithin (← upcoming).length
    match Utf8.decode bytes with
    | .ok chars => return plain ++ chars ++ (← addressWithin fuel)
    | .error _ => malformed

/-- The address of a tag. -/
def address : Scan (List Char) := do
  let rest ← upcoming
  if !rest.head?.any isAddressChar then malformed
  addressWithin (rest.length + 1)

/-- The handle of a tag: one exclamation mark, or a name between two of them. -/
def handle : Scan (List Char) := do
  match ← upcoming with
  | '!' :: ' ' :: _ => skip 1; return ['!']
  | '!' :: rest =>
    let name := rest.takeWhile isNameChar
    if rest[name.length]? ≠ some '!' then malformed
    skip (name.length + 2)
    return '!' :: name ++ ['!']
  | _ => malformed

/-- A line that begins with a percent sign. -/
def directive : Scan Token := do
  skip 1
  let word ← name
  if !atSpace (← upcoming) then malformed
  let token ← match String.ofList word with
    | "YAML" => do
      skipBlanks
      let major ← number
      if (← peek) ≠ some '.' then malformed
      skip 1
      let _ ← number
      if !atSpace (← upcoming) then malformed
      pure (.version major)
    | "TAG" => do
      skipBlanks
      let name ← handle
      if (← peek) ≠ some ' ' then malformed
      skipBlanks
      let target ← address
      if !atSpace (← upcoming) then malformed
      pure (.handle (Text.ofChars name) (Text.ofChars target))
    | _ => do
      let _ ← takeWhile (!isBreak ·)
      pure .directive
  endLine
  return token

/-- The name after the mark of an anchor or of an alias. -/
def anchorName : Scan Text := do
  skip 1
  let found ← name
  let rest ← upcoming
  if !(atGap rest || rest.head?.any "?:,]\x7d%@`".toList.contains) then malformed
  return Text.ofChars found

/-- A tag. -/
def tag : Scan Token := do
  let token ← match ← upcoming with
    | _ :: '<' :: _ => do
      skip 2
      let target ← address
      if (← peek) ≠ some '>' then malformed
      skip 1
      pure (.tag none (Text.ofChars target))
    | _ :: rest =>
      if atGap rest then do
        skip 1
        pure (.tag none "!")
      else do
        let word := rest.takeWhile fun c => !(c = ' ' || isBreak c)
        let name ← if word.contains '!' then handle else do
          skip 1
          pure ['!']
        pure (.tag (some (Text.ofChars name)) (Text.ofChars (← address)))
    | [] => malformed
  if !atSpace (← upcoming) then malformed
  return token

/-! ## Blocks of text -/

/-- What becomes of the line ends at the end of a block of text. -/
inductive Chomp where
  | strip
  | clip
  | keep
  deriving DecidableEq

/-- The sign for line ends, if it stands next. -/
def chomp : Scan (Option Chomp) := do
  match ← peek with
  | some '+' => skip 1; return some .keep
  | some '-' => skip 1; return some .strip
  | _ => return none

/-- The digit for indentation, if it stands next. -/
def increment : Scan (Option Nat) := do
  match ← peek with
  | some c =>
    if !c.isDigit then return none
    if c = '0' then malformed
    skip 1
    return some (c.toNat - 48)
  | none => return none

/-- The blanks up to a column are passed. -/
def skipTo (column : Nat) : Scan Unit := do
  let blanks := ((← upcoming).takeWhile (· = ' ')).length
  skip (min blanks (column - (← get).column))

/-- The ends of empty lines in a block of text that begins at a column. -/
def emptyLinesWithin (column : Nat) : Nat → Scan (List Char)
  | 0 => return []
  | fuel + 1 => do
    let found ← takeBreak
    if found.isEmpty then return []
    skipTo column
    return found ++ (← emptyLinesWithin column fuel)

/-- The ends of empty lines in a block of text that begins at a column. -/
def emptyLines (column : Nat) : Scan (List Char) := do
  skipTo column
  emptyLinesWithin column (← upcoming).length

/-- The ends of empty lines before a block of text, and the greatest column reached by blanks. -/
def leadingLinesWithin : Nat → Nat → Scan (List Char × Nat)
  | 0, column => return ([], column)
  | fuel + 1, column => do
    skipBlanks
    let column := max column (← get).column
    let found ← takeBreak
    if found.isEmpty then return ([], column)
    let (more, column) ← leadingLinesWithin fuel column
    return (found ++ more, column)

/-- The lines of a block of text that begins at a column, given the ends of the empty lines before
them. -/
def blockLinesWithin (folded : Bool) (chomp : Chomp) (column : Nat) :
    Nat → (empty ending : List Char) → Scan (List Char)
  | 0, _, _ => return []
  | fuel + 1, empty, ending => do
    let isBlank (rest : List Char) : Bool := rest.head? = some ' ' || rest.head? = some '\t'
    let rest ← upcoming
    if (← get).column ≠ column || rest.isEmpty then
      return match chomp with
        | .strip => []
        | .clip => ending
        | .keep => ending ++ empty
    let line ← takeWhile (!isBreak ·)
    let ending ← takeBreak
    let after ← emptyLines column
    let next ← upcoming
    let goesOn := (← get).column = column && !next.isEmpty
    let joint :=
      if !goesOn then []
      else if folded && ending = ['\n'] && !isBlank rest && !isBlank next then
        if after.isEmpty then [' '] else []
      else ending
    return empty ++ line ++ joint ++ (← blockLinesWithin folded chomp column fuel after ending)

/-- A block of text after a bar or an angle bracket. -/
def blockScalar (folded : Bool) : Scan Token := do
  skip 1
  let (sign, indentation) ← match ← chomp with
    | some sign => do pure (some sign, ← increment)
    | none => do
      let indentation ← increment
      pure (← chomp, indentation)
  if !atSpace (← upcoming) then malformed
  endLine
  let least := (max 1 ((← get).indent + 1)).toNat
  let fuel := (← upcoming).length + 1
  let (empty, column) ← match indentation with
    | some n => do
      let column := least + n - 1
      pure (← emptyLines column, column)
    | none => do
      let (empty, column) ← leadingLinesWithin fuel 0
      pure (empty, max least column)
  let text ← blockLinesWithin folded (sign.getD .clip) column fuel empty []
  return .scalar (Text.ofChars text) false

/-! ## Quoted and plain text -/

/-- The character that a letter stands for after a backslash. -/
def letterEscape? : Char → Option Char
  | '0' => some '\x00'
  | 'a' => some '\x07'
  | 'b' => some '\x08'
  | 't' | '\t' => some '\t'
  | 'n' => some '\n'
  | 'v' => some '\x0b'
  | 'f' => some '\x0c'
  | 'r' => some '\r'
  | 'e' => some '\x1b'
  | ' ' => some ' '
  | '"' => some '"'
  | '\\' => some '\\'
  | '/' => some '/'
  | 'N' => some '\x85'
  | '_' => some '\xa0'
  | 'L' => some '\u2028'
  | 'P' => some '\u2029'
  | _ => none

/-- The number of digits after a letter that writes a character by its number. -/
def digitEscape? : Char → Option Nat
  | 'x' => some 2
  | 'u' => some 4
  | 'U' => some 8
  | _ => none

/-- The ends of lines inside of quotes. -/
def quotedBreaksWithin : Nat → Scan (List Char)
  | 0 => return []
  | fuel + 1 => do
    if atDocumentMark (← upcoming) then malformed
    let _ ← takeWhile fun c => c = ' ' || c = '\t'
    let found ← takeBreak
    if found.isEmpty then return []
    return found ++ (← quotedBreaksWithin fuel)

/-- Ends of lines as text: one becomes a blank, of several the first is dropped. -/
def foldBreaks (first more : List Char) : List Char :=
  if first ≠ ['\n'] then first ++ more else if more.isEmpty then [' '] else more

/-- The character that a backslash and what follows stand for. -/
def quotedEscape : Scan Text := do
  skip 1
  match ← peek with
  | none => malformed
  | some c =>
    match letterEscape? c, digitEscape? c with
    | some value, _ =>
      skip 1
      return [value]
    | none, some count =>
      let digits := ((← upcoming).drop 1).take count
      if digits.length ≠ count || !digits.all isHex then malformed
      let n := hexValue digits
      if 0x7FFFFFFF < n then throw .overflow
      match CodePoint.ofNat? n with
      | none => throw .value
      | some value =>
        skip (count + 1)
        return [value]
    | none, none =>
      if !isBreak c then malformed
      let _ ← takeBreak
      return Text.ofChars (← quotedBreaksWithin ((← upcoming).length + 1))

/-- The text up to the closing quote. -/
def quotedWithin (quote : Char) : Nat → Scan Text
  | 0 => malformed
  | fuel + 1 => do
    let rest ← upcoming
    match rest with
    | [] => malformed
    | c :: more =>
      if c = quote then
        if quote = '\'' && more.head? = some '\'' then
          skip 2
          return .scalar '\'' :: (← quotedWithin quote fuel)
        skip 1
        return []
      else if c = '\\' && quote = '"' then return (← quotedEscape) ++ (← quotedWithin quote fuel)
      else if c = ' ' || c = '\t' || isBreak c then
        let blanks ← takeWhile fun c => c = ' ' || c = '\t'
        if (← upcoming).isEmpty then malformed
        let first ← takeBreak
        let text ← if first.isEmpty then pure blanks
          else foldBreaks first <$> quotedBreaksWithin ((← upcoming).length + 1)
        return Text.ofChars text ++ (← quotedWithin quote fuel)
      else
        skip 1
        return .scalar c :: (← quotedWithin quote fuel)

/-- A text between quotes. -/
def quoted (quote : Char) : Scan Token := do
  skip 1
  return .scalar (← quotedWithin quote ((← upcoming).length + 1)) false

/-- Whether a plain text ends at a place. -/
def endsPlain (inFlow : Bool) : List Char → Bool
  | [] => true
  | c :: rest =>
    c = ' ' || c = '\t' || isBreak c ||
      (c = ':' && (atGap rest || (inFlow && rest.head?.any ",[]\x7b\x7d".toList.contains))) ||
      (inFlow && ",?[]\x7b\x7d".toList.contains c)

/-- The length of a plain text up to a gap. -/
def plainLength (inFlow : Bool) : List Char → Nat
  | [] => 0
  | c :: rest => if endsPlain inFlow (c :: rest) then 0 else plainLength inFlow rest + 1

/-- The ends of lines after a first one inside of a plain text; none if a mark between documents
follows. -/
def plainBreaksWithin : Nat → Scan (Option (List Char))
  | 0 => return some []
  | fuel + 1 => do
    if atDocumentMark (← upcoming) then return none
    skipBlanks
    let found ← takeBreak
    if found.isEmpty then return some []
    return (← plainBreaksWithin fuel).map (found ++ ·)

/-- The gap inside of a plain text; an empty one ends it. -/
def plainGap : Scan (List Char) := do
  let blanks ← takeWhile (· = ' ')
  let first ← takeBreak
  if first.isEmpty then return blanks
  setAllowKey true
  match ← plainBreaksWithin ((← upcoming).length + 1) with
  | none => return []
  | some more => return foldBreaks first more

/-- A plain text, given the gap before its next piece. -/
def plainWithin (indent : Int) : Nat → (gap : List Char) → Scan (List Char)
  | 0, _ => return []
  | fuel + 1, gap => do
    let inFlow := (← get).depth ≠ 0
    let rest ← upcoming
    let length := if rest.head? = some '#' then 0 else plainLength inFlow rest
    if length = 0 then return []
    setAllowKey false
    skip length
    let after ← plainGap
    let piece := gap ++ rest.take length
    if after.isEmpty || (!inFlow && (← get).column < indent) then return piece
    return piece ++ (← plainWithin indent fuel after)

/-- A plain text. -/
def plain : Scan Token := do
  let indent := (← get).indent + 1
  return .scalar (Text.ofChars (← plainWithin indent ((← upcoming).length + 1) [])) true

/-! ## Tokens -/

/-- The brackets and marks of one character are passed with their token. -/
def mark (token : Token) : Scan Unit := do
  skip 1
  emit token

/-- A mark between documents or a directive, which ends all blocks. -/
def outside (token : Scan Token) : Scan Unit := do
  unwind (-1)
  dropCandidate
  setAllowKey false
  emit (← token)

/-- A token that may be a key. -/
def atom (token : Scan Token) : Scan Unit := do
  saveCandidate
  setAllowKey false
  emit (← token)

/-- An opening bracket. -/
def opening (token : Token) : Scan Unit := do
  saveCandidate
  modify fun s => { s with depth := s.depth + 1, allowKey := true }
  mark token

/-- A closing bracket. -/
def closing (token : Token) : Scan Unit := do
  dropCandidate
  modify fun s => { s with depth := s.depth - 1, allowKey := false }
  mark token

/-- A block begins here if no open block lies at the column. -/
def openBlock (token : Token) : Scan Unit := do
  let s ← get
  if s.depth = 0 then
    if !s.allowKey then malformed
    if ← addIndent s.column then emit token

/-- The dash before an entry. -/
def dash : Scan Unit := do
  openBlock .blockSequence
  setAllowKey true
  dropCandidate
  mark .dash

/-- The mark before a key. -/
def keyMark : Scan Unit := do
  openBlock .blockMapping
  setAllowKey ((← get).depth = 0)
  dropCandidate
  mark .key

/-- The colon before a value, which makes a key of what may have been one. -/
def colon : Scan Unit := do
  let s ← get
  match s.candidates.lookup s.depth with
  | some candidate =>
    set { s with candidates := s.candidates.filter (·.1 ≠ s.depth) }
    insert candidate.number .key
    if s.depth = 0 then
      if ← addIndent candidate.column then insert candidate.number .blockMapping
    setAllowKey false
  | none =>
    openBlock .blockMapping
    setAllowKey (s.depth = 0)
    dropCandidate
  mark .value

/-- Whether a plain text begins here. -/
def startsPlain (inFlow : Bool) : List Char → Bool
  | [] => false
  | c :: rest =>
    !(c = ' ' || c = '\t' || isBreak c || "-?:,[]\x7b\x7d#&*!|>'\"%@`".toList.contains c) ||
      (!atGap rest && (c = '-' || (!inFlow && (c = '?' || c = ':'))))

/-- The next token, or the end of the file. -/
def token : Scan Bool := do
  skipGap
  dropStale
  unwind (← get).column
  let s ← get
  let inFlow := s.depth ≠ 0
  match s.rest with
  | [] =>
    unwind (-1)
    dropCandidate
    return false
  | c :: rest =>
    let atStart (word : String) : Bool :=
      s.column = 0 && s.rest.take 3 = word.toList && atGap (s.rest.drop 3)
    let spaced := inFlow || atGap rest
    if c = '%' && s.column = 0 then outside directive
    else if atStart "---" then outside (do skip 3; return .documentStart)
    else if atStart "..." then outside (do skip 3; return .documentEnd)
    else match c with
      | '[' => opening .flowSequence
      | '\x7b' => opening .flowMapping
      | ']' => closing .flowSequenceEnd
      | '\x7d' => closing .flowMappingEnd
      | ',' => do
        setAllowKey true
        dropCandidate
        mark .comma
      | _ =>
        if c = '-' && atGap rest then dash
        else if c = '?' && spaced then keyMark
        else if c = ':' && spaced then colon
        else if c = '*' then atom (.alias <$> anchorName)
        else if c = '&' then atom (.anchor <$> anchorName)
        else if c = '!' then atom tag
        else if (c = '|' || c = '>') && !inFlow then do
          setAllowKey true
          dropCandidate
          emit (← blockScalar (c = '>'))
        else if c = '\'' || c = '"' then atom (quoted c)
        else if startsPlain inFlow s.rest then atom plain
        else malformed
    return true

/-- All tokens, at most `fuel` of them. -/
def tokensWithin : Nat → Scan Unit
  | 0 => return
  | fuel + 1 => do
    if ← token then tokensWithin fuel

end Scan

/-- A character that may stand in a data file. -/
def isAllowed (c : Char) : Bool :=
  let n := c.toNat
  n = 9 || n = 10 || n = 13 || (0x20 ≤ n && n ≤ 0x7E) || n = 0x85 || (0xA0 ≤ n && n ≤ 0xD7FF) ||
    (0xE000 ≤ n && n ≤ 0xFFFD) || 0x10000 ≤ n

/-- The tokens of a text up to the first fault, and the fault. -/
def Token.scan (text : List Char) : List Token × Option Fault :=
  if !text.all isAllowed then ([], some .malformed)
  else
    match (Scan.tokensWithin (2 * text.length + 2)).run.run { rest := text } with
    | (.ok _, s) => (s.tokens.toList, none)
    | (.error fault, s) => (s.tokens.toList, some fault)

end ElementWrapper.Yaml
