import ElementWrapper.Decimal.Double
import ElementWrapper.Text.Basic

/-!
The shortest decimal text of a floating-point number: the fewest digits that are read back as the
number, and of these the nearest to it. Numbers from `10^-4` up to `10^16` are written with a point
and at least one digit after it; smaller and larger ones with an exponent of at least two digits.
-/

namespace ElementWrapper.Double

/-- A decimal number: its digits, without zeros at the end, and the place of the point, counted from
before the first digit. -/
structure Decimal where
  digits : List Char
  point : Int

/-- The number of digits that suffice for every number. -/
def enoughDigits : Nat := 17

/-- The number nearest to a natural number times a power of ten. -/
def ofTens (n : Nat) (exponent : Int) : Double := ofDecimal n exponent

/-- The ratio divided by a power of ten. -/
def shift (exponent : Int) (num den : Nat) : Nat × Nat :=
  match exponent with
  | .ofNat e => (num, den * power 10 e)
  | .negSucc e => (num * power 10 (e + 1), den)

/-- The place of the point of a ratio: the least power of ten above it. -/
def pointOf (num den : Nat) : Int :=
  let guess : Int := (Nat.toDigits 10 num).length - (Nat.toDigits 10 den).length
  let below (point : Int) : Bool :=
    let (num, den) := shift point num den
    num < den
  if below guess then guess else guess + 1

/-- A natural number times a power of ten that is read back as the number, if one of the two nearest
to it with that power is. -/
def neighbour? (value : Double) (num den : Nat) (exponent : Int) : Option Nat :=
  let (num, den) := shift exponent num den
  let low := num / den
  let fits (n : Nat) : Bool := decide (ofTens n exponent = value)
  match fits low, fits (low + 1) with
  | true, true =>
    let twice := 2 * (num % den)
    some (if twice < den || (twice = den && low % 2 = 0) then low else low + 1)
  | true, false => some low
  | false, true => some (low + 1)
  | false, false => none

/-- The fewest digits that are read back, from a count of digits on. -/
def searchWithin (value : Double) (num den : Nat) (point : Int) : Nat → Nat → Nat × Int
  | 0, count => (num * power 10 count / den, -(count : Int))
  | fuel + 1, count =>
    let exponent := point - count
    match neighbour? value num den exponent with
    | some n => (n, exponent)
    | none => searchWithin value num den point fuel (count + 1)

/-- The shortest decimal number that is read back as a ratio. -/
def shortest (value : Double) (num den : Nat) : Decimal :=
  if num = 0 then ⟨['0'], 1⟩
  else
    let (n, exponent) := searchWithin value num den (pointOf num den) enoughDigits 1
    let digits := Nat.toDigits 10 n
    let trimmed := (digits.reverse.dropWhile (· = '0')).reverse
    ⟨trimmed, digits.length + exponent⟩

/-- Zeros. -/
def zeros (n : Int) : List Char := List.replicate n.toNat '0'

/-- The text of a decimal number. -/
def Decimal.text (d : Decimal) : List Char :=
  if -4 < d.point ∧ d.point ≤ 16 then
    if d.point ≤ 0 then '0' :: '.' :: zeros (-d.point) ++ d.digits
    else
      let whole := d.digits.take d.point.toNat
      let rest := d.digits.drop d.point.toNat
      whole ++ zeros (d.point - d.digits.length) ++ '.' :: (if rest.isEmpty then ['0'] else rest)
  else
    let exponent := d.point - 1
    let size := Nat.toDigits 10 exponent.natAbs
    let fraction := match d.digits with
      | first :: second :: more => first :: '.' :: second :: more
      | digits => digits
    fraction ++ 'e' :: (if exponent < 0 then '-' else '+') :: zeros (2 - size.length) ++ size

/-- The text of a number with a sign. -/
def text (negative : Bool) (value : Double) : Text :=
  let sign := if negative then ['-'] else []
  match value.toRatio? with
  | some (num, den) => Text.ofChars (sign ++ (shortest value num den).text)
  | none => Text.ofChars (sign ++ "inf".toList)

end ElementWrapper.Double
