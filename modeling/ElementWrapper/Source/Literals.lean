import ElementWrapper.Source.Cursor

/-!
Literals of one token: strings, numbers and regular expressions. Each function gives the length of
the literal that begins here, the longest one where several fit. An escape that the language does
not know makes a string or a template no literal at all.
-/

namespace ElementWrapper.Source

/-- The length of the escape after a backslash. -/
def escapeLength : List Char → Option Nat
  | [] => none
  | '\r' :: '\n' :: _ => some 2
  | 'x' :: rest => if (rest.take 2).all isHexDigit && 2 ≤ rest.length then some 3 else none
  | 'u' :: rest => (· + 1) <$> codePointEscape rest
  | c :: rest =>
    let isOctal (c : Char) := '0' ≤ c && c ≤ '7'
    if isOctal c then some (((c :: rest).take 3).takeWhile isOctal).length else some 1

/-- The length up to a quote that stands on a later line with nothing but comments before it. -/
def quoteBelow (quote : Char) : Nat → List Char → Option Nat
  | 0, _ => none
  | fuel + 1, rest =>
    let blanks := (rest.takeWhile isSpace).length
    let after := rest.drop blanks
    match commentLength after with
    | some n => (· + (blanks + n)) <$> quoteBelow quote fuel (after.drop n)
    | none => if after.head? = some quote then some (blanks + 1) else none

/-- The length of a string after its opening quote. -/
def stringTail (quote : Char) : Nat → List Char → Option Nat
  | 0, _ | _, [] => none
  | fuel + 1, c :: rest =>
    if c = quote then some 1
    else if c = '\\' then do
      let n ← escapeLength rest
      (· + (n + 1)) <$> stringTail quote fuel (rest.drop n)
    else if c = '\n' || c = '\r' then quoteBelow quote fuel (c :: rest)
    else (· + 1) <$> stringTail quote fuel rest

/-- The length of the string literal that begins here. -/
def stringLength : List Char → Option Nat
  | c :: rest =>
    if c = '"' || c = '\'' then (· + 1) <$> stringTail c (rest.length + 1) rest else none
  | [] => none

/-- The length of a run of digits with single underscores between them. -/
def digitsLength (isDigit : Char → Bool) : List Char → Nat
  | [] => 0
  | [c] => if isDigit c then 1 else 0
  | c :: '_' :: rest =>
    if isDigit c then
      let more := digitsLength isDigit rest
      if more = 0 then 1 else more + 2
    else 0
  | c :: rest => if isDigit c then digitsLength isDigit rest + 1 else 0

/-- The length of an exponent. -/
def exponentLength : List Char → Nat
  | e :: rest =>
    if e = 'e' || e = 'E' then
      let sign := if rest.head? = some '+' || rest.head? = some '-' then 1 else 0
      let digits := digitsLength Char.isDigit (rest.drop sign)
      if digits = 0 then 0 else digits + sign + 1
    else 0
  | [] => 0

/-- A run of digits that a fraction or an exponent may follow. -/
def isWhole (digits : List Char) : Bool :=
  digits = ['0'] || (match digits with
    | '0' :: c :: _ => c ≠ '0' && c ≠ '_'
    | _ => true)

/-- The length of a decimal number. -/
def decimalLength (rest : List Char) : Nat :=
  match rest with
  | '.' :: fraction =>
    let digits := digitsLength Char.isDigit fraction
    if digits = 0 then 0 else digits + 1 + exponentLength (fraction.drop digits)
  | _ =>
    let whole := digitsLength Char.isDigit rest
    let after := rest.drop whole
    if whole = 0 then 0
    else if after.head? = some 'n' then whole + 1
    else if !isWhole (rest.take whole) then whole
    else match after with
      | '.' :: fraction =>
        let digits := digitsLength Char.isDigit fraction
        whole + 1 + digits + exponentLength (fraction.drop digits)
      | _ => whole + exponentLength after

/-- The test for the digits after a mark of a base. -/
def basedDigit? (mark : Char) : Option (Char → Bool) :=
  if mark = 'x' || mark = 'X' then some isHexDigit
  else if mark = 'b' || mark = 'B' then some fun c => c = '0' || c = '1'
  else if mark = 'o' || mark = 'O' then some fun c => '0' ≤ c && c ≤ '7'
  else none

/-- The length of the number that begins here; zero if none does. -/
def numberLength (rest : List Char) : Nat :=
  match rest with
  | '0' :: mark :: digits =>
    let n := match basedDigit? mark with
      | some isDigit => digitsLength isDigit digits
      | none => 0
    if n = 0 then decimalLength rest
    else n + 2 + if (digits.drop n).head? = some 'n' then 1 else 0
  | _ => decimalLength rest

/-- The length of a class of a regular expression after its opening bracket. -/
def classTail : List Char → Option Nat
  | '\\' :: c :: rest => if c = '\n' then none else (· + 2) <$> classTail rest
  | ']' :: _ => some 1
  | '\n' :: _ | [] => none
  | _ :: rest => (· + 1) <$> classTail rest

/-- The length of the pattern of a regular expression. -/
def patternLength : Nat → List Char → Option Nat
  | 0, _ => none
  | _, '/' :: _ => some 0
  | fuel + 1, '\\' :: c :: rest =>
    if c = '\n' then none else (· + 2) <$> patternLength fuel rest
  | fuel + 1, '[' :: rest => do
    let n ← classTail rest
    (· + (n + 1)) <$> patternLength fuel (rest.drop n)
  | _, '\n' :: _ | _, [] => none
  | fuel + 1, c :: rest => if c = '\\' then none else (· + 1) <$> patternLength fuel rest

namespace Rule

/-- A string literal. -/
def string : Rule := do
  match stringLength (← upcoming) with
  | some length => return [← token "string" true length]
  | none => failure

/-- A number. -/
def number : Rule := do
  let length := numberLength (← upcoming)
  require (0 < length)
  return [← token "number" true length]

/-- A regular expression. -/
def regex : Rule := do
  match ← upcoming with
  | '/' :: rest =>
    match patternLength (rest.length + 1) rest with
    | some length =>
      require (0 < length)
      let opening ← token "/" false 1
      let pattern ← token "regex_pattern" true length
      let closing ← token "/" false 1
      let flags := ((← upcoming).takeWhile fun c => 'a' ≤ c && c ≤ 'z').length
      let flags ← if flags = 0 then pure [] else one (token "regex_flags" true flags)
      node "regex" (pure ([opening, pattern, closing] ++ flags))
    | none => failure
  | _ => failure

end Rule

end ElementWrapper.Source
