import ElementWrapper.Decimal.Shortest
import ElementWrapper.Pattern.Reading
import ElementWrapper.Yaml.Token

/-!
The kinds of plain texts in a data file. A plain text is a truth value, a number, a date or nothing
if it is spelled like one, and a text otherwise. `Scalar.spellings` holds the spellings in the order
in which they are tried.
-/

namespace ElementWrapper.Yaml

/-- What a tag says of the value that it stands before. -/
inductive Tag where
  | null
  | bool
  | int
  | float
  | binary
  | timestamp
  | orderedMap
  | pairs
  | set
  | text
  | sequence
  | mapping
  /-- The key that stands for the entries of another mapping. -/
  | merge
  /-- The key of the value that a mapping stands for. -/
  | standard
  | unknown
  deriving DecidableEq, Repr

namespace Tag

/-- The beginning of the addresses of tags that are known. -/
def start : Text := "tag:yaml.org,2002:"

/-- The names of the tags that are known. -/
def names : List (Text × Tag) :=
  [("null", null), ("bool", bool), ("int", int), ("float", float), ("binary", binary),
    ("timestamp", timestamp), ("omap", orderedMap), ("pairs", pairs), ("set", set), ("str", text),
    ("seq", sequence), ("map", mapping), ("merge", merge), ("value", standard)]

/-- The tag with an address. -/
def ofAddress (address : Text) : Tag :=
  match Text.dropStart? start address with
  | some name => (names.lookup name).getD unknown
  | none => unknown

end Tag

namespace Scalar

/-- The spellings of plain texts that are not just texts. -/
def spellings : List (Tag × Text) :=
  [(.bool, "^(?:yes|Yes|YES|no|No|NO|true|True|TRUE|false|False|FALSE|on|On|ON|off|Off|OFF)$"),
    (.float, "^(?:[-+]?(?:[0-9][0-9_]*)\\.[0-9_]*(?:[eE][-+][0-9]+)?" ++
      "|\\.[0-9][0-9_]*(?:[eE][-+][0-9]+)?" ++
      "|[-+]?[0-9][0-9_]*(?::[0-5]?[0-9])+\\.[0-9_]*" ++
      "|[-+]?\\.(?:inf|Inf|INF)|\\.(?:nan|NaN|NAN))$"),
    (.int, "^(?:[-+]?0b[0-1_]+|[-+]?0[0-7_]+|[-+]?(?:0|[1-9][0-9_]*)|[-+]?0x[0-9a-fA-F_]+" ++
      "|[-+]?[1-9][0-9_]*(?::[0-5]?[0-9])+)$"),
    (.merge, "^(?:<<)$"),
    (.null, "^(?:~|null|Null|NULL|)$"),
    (.timestamp, "^(?:[0-9][0-9][0-9][0-9]-[0-9][0-9]-[0-9][0-9]" ++
      "|[0-9][0-9][0-9][0-9]-[0-9][0-9]?-[0-9][0-9]?(?:[Tt]|[ \\t]+)[0-9][0-9]?" ++
      ":[0-9][0-9]:[0-9][0-9](?:\\.[0-9]*)?(?:[ \\t]*(?:Z|[-+][0-9][0-9]?(?::[0-9][0-9])?))?)$"),
    (.standard, "^(?:=)$")]

/-- The groups of a text that is spelled by a pattern. -/
def matched? (pattern text : Text) : Option (Regex × Site) :=
  match Regex.read pattern with
  | .ok regex => (regex.pattern.run some (.start text)).map (regex, ·)
  | .error _ => none

/-- The tag of a plain text. -/
def resolve (text : Text) : Tag :=
  match spellings.find? fun (_, pattern) => (matched? pattern text).isSome with
  | some (tag, _) => tag
  | none => .text

/-! ## Numbers -/

/-- A text without underscores. -/
def bare (text : Text) : Text := text.filter (· ≠ .scalar '_')

/-- A text with its sign split off. -/
def signed (text : Text) : Bool × Text :=
  match text with
  | .scalar '-' :: rest => (true, rest)
  | .scalar '+' :: rest => (false, rest)
  | _ => (false, text)

/-- The integer that is written in a base. -/
def intIn (base : Nat) (text : Text) : Except Fault Int :=
  match Text.readSigned (Text.readDigits base Text.hexDigit? 0 false) text with
  | some n => .ok n
  | none => .error .value

/-- The integer that is written by digits of base sixty between colons. -/
def sexagesimal (parts : List Text) : Except Fault Int :=
  parts.foldlM (fun n part => return n * 60 + (← intIn 10 part)) 0

/-- The integer that a text writes: in base two, sixteen, eight, sixty or ten. -/
def int (text : Text) : Except Fault Int := do
  let (negative, body) := signed (bare text)
  let n ← match body with
    | [.scalar '0'] => pure 0
    | .scalar '0' :: .scalar 'b' :: digits => intIn 2 digits
    | .scalar '0' :: .scalar 'x' :: digits => intIn 16 digits
    | .scalar '0' :: _ => intIn 8 body
    | _ =>
      if body.contains (.scalar ':') then sexagesimal (Text.splitOn ':' body) else intIn 10 body
  return if negative then -n else n

/-- A floating-point number with its sign, or no number. -/
inductive Real where
  | number (negative : Bool) (value : Double)
  | nan
  deriving DecidableEq

/-- The text of a floating-point number. -/
def Real.text : Real → Text
  | number negative value => value.text negative
  | nan => "nan"

/-- The number that is written with a point and an exponent, each of which may be missing. -/
def decimal (text : Text) : Except Fault Double := do
  let isDigit (c : CodePoint) : Bool := c.all Char.isDigit
  let number (digits : Text) : Nat :=
    digits.foldl (fun n c => n * 10 + (Text.decimalDigit? c).getD 0) 0
  let whole := text.takeWhile isDigit
  let rest := text.drop whole.length
  let (fraction, rest) := match rest with
    | .scalar '.' :: rest => (rest.takeWhile isDigit, rest.dropWhile isDigit)
    | _ => ([], rest)
  if whole.isEmpty && fraction.isEmpty then throw .value
  let exponent ← match rest with
    | [] => pure 0
    | c :: rest =>
      let (negative, digits) := signed rest
      if c ≠ .scalar 'e' || digits.isEmpty || !digits.all isDigit then throw .value
      pure (if negative then -(number digits : Int) else (number digits : Int))
  return Double.ofDecimal (number (whole ++ fraction)) (exponent - fraction.length)

/-- The floating-point number that a text writes. -/
def float (text : Text) : Except Fault Real := do
  let small (c : CodePoint) : CodePoint := match c with
    | .scalar c => .scalar c.toLower
    | c => c
  let (negative, body) := signed ((bare text).map small)
  if [Text.ofString ".inf", Text.ofString "inf", Text.ofString "infinity"].contains body then
    return .number negative .infinite
  if [Text.ofString ".nan", Text.ofString "nan"].contains body then return .nan
  if body.contains (.scalar ':') then
    let parts ← (Text.splitOn ':' body).mapM decimal
    let step (sum : Double × Double) (part : Double) : Double × Double :=
      (sum.1.add (part.mul sum.2), sum.2.mul (.ofRatio 60 1))
    return .number negative (parts.reverse.foldl step (.zero, .ofRatio 1 1)).1
  return .number negative (← decimal body)

/-! ## Truth values, dates and bytes -/

/-- The truth value that a text writes. -/
def bool (text : Text) : Except Fault Bool :=
  let lower := Text.ofChars ((text.filterMap CodePoint.toChar?).map Char.toLower)
  if [Text.ofString "yes", Text.ofString "true", Text.ofString "on"].contains lower then .ok true
  else if [Text.ofString "no", Text.ofString "false", Text.ofString "off"].contains lower then
    .ok false
  else .error .value

/-- The parts of a date. -/
def datePattern : Text :=
  "^(?P<year>[0-9][0-9][0-9][0-9])-(?P<month>[0-9][0-9]?)-(?P<day>[0-9][0-9]?)" ++
  "(?:(?:[Tt]|[ \\t]+)(?P<hour>[0-9][0-9]?):(?P<minute>[0-9][0-9]):(?P<second>[0-9][0-9])" ++
  "(?:\\.(?P<fraction>[0-9]*))?(?:[ \\t]*(?P<zone>Z|(?P<sign>[-+])(?P<hours>[0-9][0-9]?)" ++
  "(?::(?P<minutes>[0-9][0-9]))?))?)?$"

/-- The number of days of a month. -/
def daysIn (year month : Nat) : Nat :=
  if month = 2 then
    if year % 4 = 0 && (year % 100 ≠ 0 || year % 400 = 0) then 29 else 28
  else if [4, 6, 9, 11].contains month then 30
  else 31

/-- Whether a text writes a date of the calendar, with a time of the day if there is one. -/
def checkDate (text : Text) : Except Fault Unit := do
  match matched? datePattern text with
  | none => throw .value
  | some (regex, site) =>
    let part (name : Text) : Nat :=
      match ((regex.names.lookup name).bind site.group?).bind Text.readDecimal with
      | some n => n.toNat
      | none => 0
    let year := part "year"
    let month := part "month"
    let day := part "day"
    let valid := 1 ≤ year && 1 ≤ month && month ≤ 12 && 1 ≤ day && day ≤ daysIn year month &&
      part "hour" < 24 && part "minute" < 60 && part "second" < 60 &&
      part "hours" * 60 + part "minutes" < 24 * 60
    if !valid then throw .value

/-- The value of a digit of base sixty-four. -/
def sixBits? (c : Char) : Option Nat :=
  if 'A' ≤ c && c ≤ 'Z' then some (c.toNat - 65)
  else if 'a' ≤ c && c ≤ 'z' then some (c.toNat - 71)
  else if c.isDigit then some (c.toNat + 4)
  else if c = '+' then some 62
  else if c = '/' then some 63
  else none

/-- The bytes that digits of base sixty-four stand for, given the bits that are left over from the
digits before, how many digits of a group of four were read, and how many pads stand there. What is
no digit is skipped. -/
def bytesFrom (bits digits pads : Nat) : List Char → Except Fault (List UInt8)
  | [] => if digits = 0 then .ok [] else .error .malformed
  | '=' :: rest =>
    if 2 ≤ digits && 4 ≤ digits + pads + 1 then .ok []
    else bytesFrom bits digits (if 2 ≤ digits then pads + 1 else pads) rest
  | c :: rest =>
    match sixBits? c with
    | none => bytesFrom bits digits pads rest
    | some n =>
      match digits with
      | 0 => bytesFrom n 1 0 rest
      | 1 => (UInt8.ofNat (bits * 4 + n / 16) :: ·) <$> bytesFrom (n % 16) 2 0 rest
      | 2 => (UInt8.ofNat (bits * 16 + n / 4) :: ·) <$> bytesFrom (n % 4) 3 0 rest
      | _ => (UInt8.ofNat (bits * 64 + n) :: ·) <$> bytesFrom 0 0 0 rest

/-- The bytes that a text of ASCII characters writes in base sixty-four. -/
def bytes (text : Text) : Except Fault (List UInt8) :=
  match text.toChars? with
  | some chars => if chars.all (·.toNat < 0x80) then bytesFrom 0 0 0 chars else .error .malformed
  | none => .error .malformed

end Scalar

end ElementWrapper.Yaml
